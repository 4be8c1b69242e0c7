import Shardd.Billing.Webhooks
import Shardd.Node.Startup

/-!
# Deliveries of webhook events

Any number of deliveries of any events are under way at once, and every call that one of them makes
may fail.  An event is marked before it is handled, so that one whose handling fails is never
handled again; and between the question whether it has been processed and the mark another delivery
may ask the same question.  Where neither happens, every event takes effect at most once.
-/

namespace Shardd

variable {D : Type}

/-! ## The system -/

/-- Billing, and what its webhook events have done. -/
structure Delivering (D : Type) where
  billing : BillingState D
  /-- History: the ids of the events that have changed a subscription, once for each change. -/
  rowEffects : List String
  /-- History: the ids of the events that have changed a balance, once for each change. -/
  creditEffects : List String
  /-- History: how deliveries have ended. -/
  outcomes : List (String × Except AppError WebhookOutcome)

namespace Delivering

def start (s : BillingState D) : Delivering D where
  billing := s
  rowEffects := []
  creditEffects := []
  outcomes := []

variable (x : Delivering D)

/-- The balance of the account that a call writes to. -/
def balanceAt (op : BillingCall) (s : BillingState D) : Int64 :=
  match op with
  | .createEvent req => (s.node.account (req.bucket, req.account)).balance
  | _ => 0

/-- A call for `event` has been served. -/
def served (event : StripeEvent) (op : BillingCall) (s : BillingState D) : Delivering D :=
  { x with
    billing := s
    rowEffects :=
      if s.db.subscriptions = x.billing.db.subscriptions then x.rowEffects
      else x.rowEffects ++ [event.id]
    creditEffects :=
      if balanceAt op s = balanceAt op x.billing then x.creditEffects
      else x.creditEffects ++ [event.id] }

/-- The ids of the events that have been marked. -/
def marked : List String := x.billing.db.processedStripeEvents.map (·.1)

end Delivering

abbrev DeliveryEvent :=
  Calls.Event StripeEvent BillingCall BillingCall.Answer (Except AppError WebhookOutcome)

abbrev Deliveries (D : Type) :=
  Calls (Delivering D) StripeEvent BillingCall BillingCall.Answer
    (Except AppError WebhookOutcome)

abbrev DeliveryClient := BillingClient (Except AppError WebhookOutcome)

/-- Deliveries and redeliveries of events, while anything else may happen at the node and to the
rows of the database. -/
def stripeServer (env : Env D) (parsers : IdParsers) :
    Server (Delivering D) StripeEvent BillingCall BillingCall.Answer
      (Except AppError WebhookOutcome) where
  starts _ event t := t = (stripeWebhook parsers event).run
  serves event op x ans x' := ∃ s', x.billing.Serves env op ans s' ∧ x' = x.served event op s'
  ends event r x := { x with outcomes := x.outcomes ++ [(event.id, r)] }
  others x x' := ∃ s', s'.db.processedStripeEvents = x.billing.db.processedStripeEvents ∧
    x' = { x with billing := s' }

/-- The next call is the mark. -/
def atMark : DeliveryClient → Bool
  | .call (.query (.markStripeEventProcessed _ _)) _ => true
  | _ => false

/-- The next call is the question whether the event has been processed. -/
def atCheck : DeliveryClient → Bool
  | .call (.query (.isStripeEventProcessed _)) _ => true
  | _ => false

/-- The rule under which events take effect once.  A delivery finds its event unmarked only when no
other delivery of the event has found it so and not marked it yet; and after its event has been
marked a delivery does not fail. -/
def StripeRule (_ : Delivering D) (ev : DeliveryEvent) (x' : Delivering D) : Prop :=
  match ev with
  | .served rest event op next ans =>
      (atMark (next ans) = true → ∀ c ∈ rest, c.1.id = event.id → atMark c.2 = false) ∧
      ∀ err, next ans = .done (.error err) →
        op = .query (.isStripeEventProcessed event.id) ∨ event.id ∉ x'.marked
  | _ => True

/-! ## The stages of a delivery -/

section Stages

variable (parsers : IdParsers) (event : StripeEvent)

def handling : BillingM WebhookOutcome := do
  handleEvent parsers event
  return .handled

def afterCheck : Except AppError Bool → DeliveryClient
  | .error err => .done (.error err)
  | .ok true => .done (.ok .alreadyProcessed)
  | .ok false => (markAndHandle parsers event).run

def afterMark : Except AppError Unit → DeliveryClient
  | .error err => .done (.error err)
  | .ok () => (handling parsers event).run

lemma stripeWebhook_run : (stripeWebhook parsers event).run =
    .call (.query (.isStripeEventProcessed event.id)) (afterCheck parsers event) := by
  show Client.call _ _ = _
  congr 1
  funext ans
  rcases ans with err | (_ | _) <;> rfl

lemma markAndHandle_run : (markAndHandle parsers event).run =
    .call (.query (.markStripeEventProcessed event.id event.type)) (afterMark parsers event) := by
  show Client.call _ _ = _
  congr 1
  funext ans
  rcases ans with err | _ <;> rfl

lemma cost_handling {mark row credit : ℕ} :
    (handling parsers event).run.cost (callPrice mark row credit) ≤ row + credit := by
  refine (Client.cost_bindExcept_le (b := 0) fun _ => le_rfl).trans ?_
  rw [add_zero]
  exact cost_handleEvent parsers event

lemma yields_handling : (handling parsers event).run.Yields (· ≠ .ok .alreadyProcessed) := by
  refine (Client.yields_true (handleEvent parsers event).run).bind fun r _ => ?_
  cases r with
  | ok _ =>
      show Except.ok WebhookOutcome.handled ≠ .ok .alreadyProcessed
      simp
  | error err =>
      show Except.error err ≠ .ok WebhookOutcome.alreadyProcessed
      simp

/-- Where a delivery is; `marked` are the events that have been marked. -/
inductive Stage (marked : List String) : DeliveryClient → Prop
  | fresh : Stage marked
      (.call (.query (.isStripeEventProcessed event.id)) (afterCheck parsers event))
  | marking : Stage marked
      (.call (.query (.markStripeEventProcessed event.id event.type)) (afterMark parsers event))
  | handling {t : DeliveryClient} (hcost : t.cost (callPrice 1 0 0) = 0)
      (hyields : t.Yields (· ≠ .ok .alreadyProcessed)) : Stage marked t
  | skipped (hmarked : event.id ∈ marked) : Stage marked (.done (.ok .alreadyProcessed))

variable {parsers event} in
lemma Stage.mono {marked marked' : List String} {t : DeliveryClient}
    (h : Stage parsers event marked t) (hsub : marked ⊆ marked') :
    Stage parsers event marked' t := by
  cases h with
  | fresh => exact .fresh
  | marking => exact .marking
  | handling hcost hyields => exact .handling hcost hyields
  | skipped hmarked => exact .skipped (hsub hmarked)

/-- A delivery that has neither to ask nor to mark any more. -/
lemma at_eq_false {t : DeliveryClient} (h : t.cost (callPrice 1 0 0) = 0) :
    atCheck t = false ∧ atMark t = false := by
  cases t with
  | done _ => exact ⟨rfl, rfl⟩
  | call op next =>
      have hprice : callPrice 1 0 0 op = 0 := by
        have hle : (callPrice 1 0 0 op : ℕ∞) ≤ (Client.call op next).cost (callPrice 1 0 0) :=
          le_self_add
        rw [h] at hle
        exact_mod_cast nonpos_iff_eq_zero.1 hle
      cases op with
      | query q =>
          cases q with
          | isStripeEventProcessed _ => cases hprice
          | markStripeEventProcessed _ _ => cases hprice
          | _ => exact ⟨rfl, rfl⟩
      | _ => exact ⟨rfl, rfl⟩

/-- The event has been marked, and this delivery is at handling it. -/
def InHand (t : DeliveryClient) : Prop :=
  t.cost (callPrice 1 0 0) = 0 ∧ t.Yields (· ≠ .ok .alreadyProcessed) ∧
    ∀ err, t ≠ .done (.error err)

end Stages

/-! ## What is still due -/

section Due

variable (price : BillingCall → ℕ) (id : String)

/-- What a delivery of `id` may still come to, unless it has to ask or to mark first. -/
noncomputable def weight (c : StripeEvent × DeliveryClient) : ℕ∞ :=
  if c.1.id = id ∧ atCheck c.2 = false ∧ atMark c.2 = false then c.2.cost price else 0

/-- What has been done for the event `id` and what may still be. -/
noncomputable def due (effects : List String) (live : List (StripeEvent × DeliveryClient)) : ℕ∞ :=
  effects.count id + (live.map (weight price id)).sum

variable {price id} {effects effects' : List String}
  {before after live : List (StripeEvent × DeliveryClient)} {event : StripeEvent}
  {t t' : DeliveryClient}

lemma weight_le : weight price id (event, t) ≤ t.cost price := by
  unfold weight
  split
  · exact le_rfl
  · exact zero_le

lemma due_append : due price id effects (live ++ [(event, t)]) =
    due price id effects live + weight price id (event, t) := by
  simp only [due, List.map_append, List.sum_append, List.map_cons, List.map_nil, List.sum_cons,
    List.sum_nil, add_zero, add_assoc]

lemma due_middle : due price id effects (before ++ (event, t) :: after) =
    due price id effects (before ++ after) + weight price id (event, t) := by
  simp only [due, List.map_append, List.sum_append, List.map_cons, List.sum_cons]
  ac_rfl

/-- A call that is served adds no more to what is due than it takes away. -/
lemma due_served {n : ℕ}
    (heffects : effects'.count id ≤ effects.count id + if event.id = id then n else 0)
    (hweight : event.id = id → n + weight price id (event, t') ≤ weight price id (event, t)) :
    due price id effects' (before ++ (event, t') :: after) ≤
      due price id effects (before ++ (event, t) :: after) := by
  rw [due_middle, due_middle]
  by_cases hid : event.id = id
  · rw [if_pos hid] at heffects
    have hcount : (effects'.count id : ℕ∞) ≤ effects.count id + n := by exact_mod_cast heffects
    calc due price id effects' (before ++ after) + weight price id (event, t')
        = effects'.count id + ((before ++ after).map (weight price id)).sum +
            weight price id (event, t') := rfl
      _ ≤ effects.count id + n + ((before ++ after).map (weight price id)).sum +
            weight price id (event, t') := by gcongr
      _ = due price id effects (before ++ after) + (n + weight price id (event, t')) := by
          unfold due
          ac_rfl
      _ ≤ _ := by
          gcongr
          exact hweight hid
  · rw [if_neg hid, add_zero] at heffects
    have hcount : (effects'.count id : ℕ∞) ≤ effects.count id := by exact_mod_cast heffects
    have hzero : ∀ t, weight price id (event, t) = 0 := fun t => if_neg fun h => hid h.1
    rw [hzero, hzero]
    unfold due
    gcongr

end Due

/-- A call that is free for rows leaves them as they are. -/
lemma BillingState.Serves.subscriptions_eq {env : Env D} {s s' : BillingState D}
    {op : BillingCall} {ans : op.Answer} (h : s.Serves env op ans s')
    (hfree : callPrice 0 1 0 op = 0) : s'.db.subscriptions = s.db.subscriptions := by
  have hquery : ∀ q, callPrice 0 1 0 (.query q) = 0 →
      (s.db.run q).2.subscriptions = s.db.subscriptions := by
    intro q hq
    cases q with
    | freePlanId =>
        simp only [BillingDb.run]
        split <;> rfl
    | markStripeEventProcessed eventId eventType =>
        simp only [BillingDb.run]
        split <;> rfl
    | insertSubscription _ _ _ => cases hq
    | setStripeCustomerId _ _ => cases hq
    | activateSubscription _ _ _ _ _ => cases hq
    | updateSubscriptionStatus _ _ => cases hq
    | setPlanManual _ _ _ => cases hq
    | updatePeriod _ _ _ => cases hq
    | cancelSubscription _ _ => cases hq
    | _ => rfl
  cases h with
  | queried q => exact hquery q hfree
  | queryUnanswered q _ => exact hquery q hfree
  | _ => rfl

/-- A call that is free for the record of processed events leaves it as it is. -/
lemma BillingState.Serves.processed_eq {env : Env D} {s s' : BillingState D}
    {op : BillingCall} {ans : op.Answer} (h : s.Serves env op ans s')
    (hfree : callPrice 1 0 0 op = 0) :
    s'.db.processedStripeEvents = s.db.processedStripeEvents := by
  have hquery : ∀ q, callPrice 1 0 0 (.query q) = 0 →
      (s.db.run q).2.processedStripeEvents = s.db.processedStripeEvents := by
    intro q hq
    cases q with
    | freePlanId =>
        simp only [BillingDb.run]
        split <;> rfl
    | insertSubscription _ _ _ =>
        simp only [BillingDb.run]
        split <;> rfl
    | setStripeCustomerId _ _ =>
        simp only [BillingDb.run]
        split <;> rfl
    | activateSubscription _ _ _ _ _ =>
        simp only [BillingDb.run]
        split <;> rfl
    | setPlanManual _ _ _ =>
        simp only [BillingDb.run]
        split <;> rfl
    | isStripeEventProcessed _ => cases hq
    | markStripeEventProcessed _ _ => cases hq
    | _ => rfl
  cases h with
  | queried q => exact hquery q hfree
  | queryUnanswered q _ => exact hquery q hfree
  | _ => rfl

/-- Changes of a subscription are paid for. -/
lemma count_rowEffects {env : Env D} {x : Delivering D} {event : StripeEvent} {op : BillingCall}
    {ans : op.Answer} {s' : BillingState D} (h : x.billing.Serves env op ans s') (id : String) :
    (x.served event op s').rowEffects.count id ≤
      x.rowEffects.count id + if event.id = id then callPrice 0 1 0 op else 0 := by
  show (if s'.db.subscriptions = x.billing.db.subscriptions then x.rowEffects
      else x.rowEffects ++ [event.id]).count id ≤ _
  split
  next hsame => exact Nat.le_add_right _ _
  next hchanged =>
    rw [List.count_append, List.count_singleton]
    have hpaid : callPrice 0 1 0 op ≠ 0 := fun hfree => hchanged (h.subscriptions_eq hfree)
    by_cases hid : event.id = id
    · rw [if_pos hid, if_pos (beq_iff_eq.2 hid)]
      omega
    · rw [if_neg hid, if_neg fun heq => hid (beq_iff_eq.1 heq)]

/-- Changes of a balance are paid for. -/
lemma count_creditEffects {x : Delivering D} {event : StripeEvent} {op : BillingCall}
    {s' : BillingState D} (id : String) :
    (x.served event op s').creditEffects.count id ≤
      x.creditEffects.count id + if event.id = id then callPrice 0 0 1 op else 0 := by
  show (if Delivering.balanceAt op s' = Delivering.balanceAt op x.billing then x.creditEffects
      else x.creditEffects ++ [event.id]).count id ≤ _
  split
  next hsame => exact Nat.le_add_right _ _
  next hchanged =>
    rw [List.count_append, List.count_singleton]
    have hpaid : callPrice 0 0 1 op = 1 := by
      cases op with
      | createEvent req => rfl
      | _ => exact absurd rfl hchanged
    by_cases hid : event.id = id
    · rw [if_pos hid, if_pos (beq_iff_eq.2 hid), hpaid]
    · rw [if_neg hid, if_neg fun heq => hid (beq_iff_eq.1 heq)]

/-! ## Every event takes effect once -/

section Once

variable {env : Env D} {parsers : IdParsers}

/-- The event has been handled, or a delivery is at handling it. -/
def EventHandled (p : Deliveries D) (id : String) : Prop :=
  (id, .ok .handled) ∈ p.shared.outcomes ∨ ∃ c ∈ p.live, c.1.id = id ∧ InHand c.2

/-- What holds all through a run that keeps to the rule. -/
structure Delivered (parsers : IdParsers) (p : Deliveries D) : Prop where
  stages : ∀ c ∈ p.live, Stage parsers c.1 p.shared.marked c.2
  marking : ∀ id, (p.live.countP fun c => c.1.id = id && atMark c.2) ≤
    if id ∈ p.shared.marked then 0 else 1
  rows : ∀ id, due (callPrice 0 1 0) id p.shared.rowEffects p.live ≤
    if id ∈ p.shared.marked then 1 else 0
  credits : ∀ id, due (callPrice 0 0 1) id p.shared.creditEffects p.live ≤
    if id ∈ p.shared.marked then 1 else 0
  handled : ∀ id ∈ p.shared.marked, EventHandled p id
  skipped : ∀ id, (id, .ok .alreadyProcessed) ∈ p.shared.outcomes → id ∈ p.shared.marked

namespace Delivered

variable {x x' : Delivering D} {before after : List (StripeEvent × DeliveryClient)}
  {event : StripeEvent} {t t' : DeliveryClient}

lemma mem_of_rest {c : StripeEvent × DeliveryClient} (h : c ∈ before ∨ c ∈ after)
    (t : DeliveryClient) : c ∈ before ++ (event, t) :: after :=
  List.mem_append.2 (h.imp id fun h => List.mem_cons_of_mem _ h)

lemma rest_or_eq {c : StripeEvent × DeliveryClient} (h : c ∈ before ++ (event, t) :: after) :
    (c ∈ before ∨ c ∈ after) ∨ c = (event, t) := by
  rcases List.mem_append.1 h with h | h
  · exact .inl (.inl h)
  · rcases List.mem_cons.1 h with rfl | h
    · exact .inr rfl
    · exact .inl (.inr h)

/-- A call that marks nothing. -/
lemma serve_unmarked (h : Delivered parsers ⟨x, before ++ (event, t) :: after⟩)
    (hmarked : x'.marked = x.marked) (houtcomes : x'.outcomes = x.outcomes)
    (hstage : Stage parsers event x.marked t')
    (hmarking : atMark t' = true → event.id ∉ x.marked ∧
      ∀ c ∈ before ++ after, c.1.id = event.id → atMark c.2 = false)
    (hrows : ∀ id, due (callPrice 0 1 0) id x'.rowEffects (before ++ (event, t') :: after) ≤
      due (callPrice 0 1 0) id x.rowEffects (before ++ (event, t) :: after))
    (hcredits : ∀ id, due (callPrice 0 0 1) id x'.creditEffects (before ++ (event, t') :: after) ≤
      due (callPrice 0 0 1) id x.creditEffects (before ++ (event, t) :: after))
    (hin : event.id ∈ x.marked → InHand t → InHand t') :
    Delivered parsers ⟨x', before ++ (event, t') :: after⟩ where
  stages c hc := by
    rw [hmarked]
    rcases rest_or_eq hc with hc | rfl
    · exact h.stages c (mem_of_rest hc t)
    · exact hstage
  marking id := by
    have hbefore := h.marking id
    rw [hmarked]
    simp only [List.countP_append, List.countP_cons] at hbefore ⊢
    by_cases hnew : (decide (event.id = id) && atMark t') = true
    · rw [Bool.and_eq_true, decide_eq_true_eq] at hnew
      obtain ⟨rfl, hat⟩ := hnew
      obtain ⟨hunmarked, hothers⟩ := hmarking hat
      have hnone : ∀ l : List (StripeEvent × DeliveryClient), (∀ c ∈ l, c ∈ before ++ after) →
          (l.countP fun c => c.1.id = event.id && atMark c.2) = 0 := by
        intro l hl
        refine List.countP_eq_zero.2 fun c hc => ?_
        simp only [Bool.and_eq_true, decide_eq_true_eq, not_and]
        intro hid
        rw [hothers c (hl c hc) hid]
        exact Bool.false_ne_true
      rw [hnone before fun c hc => List.mem_append_left _ hc,
        hnone after fun c hc => List.mem_append_right _ hc, if_neg hunmarked]
      split <;> omega
    · rw [if_neg hnew]
      omega
  rows id := (hrows id).trans (hmarked ▸ h.rows id)
  credits id := (hcredits id).trans (hmarked ▸ h.credits id)
  handled id hid := by
    rw [hmarked] at hid
    rcases h.handled id hid with hended | ⟨c, hc, hcid, hhand⟩
    · exact .inl (houtcomes ▸ hended)
    · rcases rest_or_eq hc with hc | rfl
      · exact .inr ⟨c, mem_of_rest hc t', hcid, hhand⟩
      · exact .inr ⟨(event, t'), List.mem_append_right _ List.mem_cons_self, hcid,
          hin (hcid ▸ hid) hhand⟩
  skipped id hid := by
    rw [hmarked]
    exact h.skipped id (houtcomes ▸ hid)

/-- A mark that goes through. -/
lemma serve_mark (h : Delivered parsers ⟨x, before ++ (event, t) :: after⟩)
    (hat : atMark t = true) (hmarked : ∀ id, id ∈ x'.marked ↔ id ∈ x.marked ∨ id = event.id)
    (houtcomes : x'.outcomes = x.outcomes) (hrows : x'.rowEffects = x.rowEffects)
    (hcredits : x'.creditEffects = x.creditEffects)
    (herror : ∀ err, (handling parsers event).run ≠ .done (.error err)) :
    Delivered parsers ⟨x', before ++ (event, (handling parsers event).run) :: after⟩ := by
  have hcost : (handling parsers event).run.cost (callPrice 1 0 0) = 0 :=
    le_antisymm (cost_handling parsers event) zero_le
  have hunmarked : event.id ∉ x.marked := fun hmem => by
    have hnone := h.marking event.id
    have hlimit : (if event.id ∈ x.marked then 0 else 1) = 0 := if_pos hmem
    simp only [List.countP_append, List.countP_cons, hat, decide_true, Bool.and_true, if_true,
      hlimit] at hnone
    omega
  have hsub : x.marked ⊆ x'.marked := fun id hid => (hmarked id).2 (.inl hid)
  -- what is due for `event` was nothing, and is now what handling it may come to
  have hdue : ∀ {price : BillingCall → ℕ} (effects : List String),
      (∀ id, due price id effects (before ++ (event, t) :: after) ≤
        if id ∈ x.marked then 1 else 0) → (handling parsers event).run.cost price ≤ 1 → ∀ id,
      due price id effects (before ++ (event, (handling parsers event).run) :: after) ≤
        if id ∈ x'.marked then 1 else 0 := by
    intro price effects hold hprice id
    have hold := hold id
    rw [due_middle] at hold ⊢
    by_cases hid : id = event.id
    · subst hid
      rw [if_neg hunmarked] at hold
      have hnothing := nonpos_iff_eq_zero.1 (le_self_add.trans hold)
      rw [if_pos ((hmarked _).2 (.inr rfl)), hnothing, zero_add]
      exact weight_le.trans hprice
    · have hzero : ∀ t, weight price id (event, t) = 0 := fun t => if_neg fun h => hid h.1.symm
      rw [hzero] at hold ⊢
      have hiff : id ∈ x'.marked ↔ id ∈ x.marked := (hmarked id).trans (or_iff_left hid)
      simpa only [hiff] using hold
  refine ⟨fun c hc => ?_, fun id => ?_, ?_, ?_, fun id hid => ?_, fun id hid => ?_⟩
  · rcases rest_or_eq hc with hc | rfl
    · exact (h.stages c (mem_of_rest hc t)).mono hsub
    · exact .handling hcost (yields_handling parsers event)
  · have hold := h.marking id
    have hnot := (at_eq_false hcost).2
    by_cases hid : id = event.id
    · subst hid
      have hlimit : (if event.id ∈ x.marked then 0 else 1) = 1 := if_neg hunmarked
      have hlimit' : (if event.id ∈ x'.marked then 0 else 1) = 0 :=
        if_pos ((hmarked _).2 (.inr rfl))
      simp only [List.countP_append, List.countP_cons, hat, decide_true, Bool.and_true, if_true,
        hlimit] at hold
      simp only [List.countP_append, List.countP_cons, hnot, Bool.and_false, hlimit',
        Bool.false_eq_true, if_false]
      omega
    · have hiff : id ∈ x'.marked ↔ id ∈ x.marked := (hmarked id).trans (or_iff_left hid)
      simp only [List.countP_append, List.countP_cons, hat, Ne.symm hid, decide_false,
        Bool.false_and, Bool.false_eq_true, if_false] at hold
      simp only [List.countP_append, List.countP_cons, hnot, Bool.and_false, hiff,
        Bool.false_eq_true, if_false]
      exact hold
  · rw [hrows]
    exact hdue x.rowEffects h.rows (cost_handling parsers event)
  · rw [hcredits]
    exact hdue x.creditEffects h.credits (cost_handling parsers event)
  · by_cases hid' : id = event.id
    · exact .inr ⟨_, List.mem_append_right _ List.mem_cons_self, hid'.symm, hcost,
        yields_handling parsers event, herror⟩
    · rcases h.handled id (((hmarked id).1 hid).resolve_right hid') with hended | ⟨c, hc, hcid, hc'⟩
      · exact .inl (houtcomes ▸ hended)
      · rcases rest_or_eq hc with hc | rfl
        · exact .inr ⟨c, mem_of_rest hc _, hcid, hc'⟩
        · exact absurd hcid.symm hid'
  · exact hsub (h.skipped id (houtcomes ▸ hid))

/-- The answer to the question whether an event has been processed. -/
lemma serves_check {ans : Except AppError Bool} {s' : BillingState D}
    (h : x.billing.Serves env (.query (.isStripeEventProcessed event.id)) ans s') :
    s' = x.billing ∧ ∀ b, ans = .ok b → (b = true ↔ event.id ∈ x.marked) := by
  cases h with
  | queried _ =>
      refine ⟨rfl, fun b hb => ?_⟩
      obtain rfl := Except.ok.inj hb
      simp only [Delivering.marked, List.any_eq_true, decide_eq_true_eq, List.mem_map]
  | queryLost _ _ => exact ⟨rfl, fun b hb => by cases hb⟩
  | queryUnanswered _ _ => exact ⟨rfl, fun b hb => by cases hb⟩

lemma served_self (x : Delivering D) (event : StripeEvent) (op : BillingCall) :
    x.served event op x.billing = x := by
  unfold Delivering.served
  rw [if_pos rfl, if_pos rfl]

/-- A delivery that has asked whether its event has been processed. -/
lemma serve_check {ans : Except AppError Bool} {s' : BillingState D}
    (h : Delivered parsers ⟨x, before ++ (event, .call (.query (.isStripeEventProcessed event.id))
      (afterCheck parsers event)) :: after⟩)
    (hserves : x.billing.Serves env (.query (.isStripeEventProcessed event.id)) ans s')
    (hrule : atMark (afterCheck parsers event ans) = true →
      ∀ c ∈ before ++ after, c.1.id = event.id → atMark c.2 = false) :
    Delivered parsers ⟨x.served event (.query (.isStripeEventProcessed event.id)) s',
      before ++ (event, afterCheck parsers event ans) :: after⟩ := by
  obtain ⟨rfl, hanswer⟩ := serves_check hserves
  rw [served_self]
  have hnothing : ∀ price id, weight price id (event, afterCheck parsers event ans) = 0 := by
    intro price id
    rcases ans with err | _ | _
    · exact nonpos_iff_eq_zero.1 weight_le
    · show weight price id (event, (markAndHandle parsers event).run) = 0
      rw [markAndHandle_run]
      exact if_neg fun h => by cases h.2.2
    · exact nonpos_iff_eq_zero.1 weight_le
  have hdue : ∀ price id (effects : List String),
      due price id effects (before ++ (event, afterCheck parsers event ans) :: after) ≤
        due price id effects (before ++ (event, .call (.query (.isStripeEventProcessed event.id))
          (afterCheck parsers event)) :: after) := fun price id effects => by
    rw [due_middle, due_middle, hnothing, add_zero]
    exact le_self_add
  refine h.serve_unmarked rfl rfl ?_ (fun hat => ⟨?_, hrule hat⟩) (fun id => hdue _ id _)
    (fun id => hdue _ id _) fun _ hin => ?_
  · rcases ans with err | _ | _
    · exact .handling rfl fun hne => by cases hne
    · show Stage parsers event x.marked (markAndHandle parsers event).run
      rw [markAndHandle_run]
      exact .marking
    · exact .skipped ((hanswer true rfl).1 rfl)
  · rcases ans with err | _ | _
    · cases hat
    · exact fun hmem => Bool.false_ne_true ((hanswer false rfl).2 hmem)
    · cases hat
  · -- a delivery that still has to ask is not at handling its event
    have hfalse : atCheck (.call (.query (.isStripeEventProcessed event.id))
      (afterCheck parsers event)) = false := (at_eq_false hin.1).1
    cases hfalse

/-- What a mark does to the record of processed events. -/
lemma mem_marked_mark (db : BillingDb) (eventId eventType id : String) :
    id ∈ (db.run (.markStripeEventProcessed eventId eventType)).2.processedStripeEvents.map (·.1) ↔
      id ∈ db.processedStripeEvents.map (·.1) ∨ id = eventId := by
  show id ∈ (if db.processedStripeEvents.any (·.1 = eventId) then db else
    { db with processedStripeEvents := db.processedStripeEvents ++
      [(eventId, eventType)] }).processedStripeEvents.map (·.1) ↔ _
  split
  next hold =>
    obtain ⟨entry, hentry, heq⟩ := List.any_eq_true.1 hold
    have hmem : eventId ∈ db.processedStripeEvents.map (·.1) :=
      List.mem_map.2 ⟨entry, hentry, of_decide_eq_true heq⟩
    exact ⟨.inl, fun h => h.elim (fun h => h) fun h => h ▸ hmem⟩
  next hnew =>
    rw [List.map_append, List.mem_append, List.map_singleton, List.mem_singleton]

/-- A delivery that has tried to mark its event. -/
lemma serve_marking {ans : Except AppError Unit} {s' : BillingState D}
    (h : Delivered parsers ⟨x, before ++ (event, .call (.query (.markStripeEventProcessed event.id
      event.type)) (afterMark parsers event)) :: after⟩)
    (hserves : x.billing.Serves env (.query (.markStripeEventProcessed event.id event.type)) ans s')
    (hrule : ∀ err, afterMark parsers event ans = .done (.error err) →
      event.id ∉ (x.served event (.query (.markStripeEventProcessed event.id event.type))
        s').marked) :
    Delivered parsers ⟨x.served event (.query (.markStripeEventProcessed event.id event.type)) s',
      before ++ (event, afterMark parsers event ans) :: after⟩ := by
  have hmarked := mem_marked_mark x.billing.db event.id event.type
  have hrows := hserves.subscriptions_eq rfl
  cases hserves with
  | queried _ =>
      refine h.serve_mark rfl hmarked rfl (if_pos hrows) ?_ fun err herror => ?_
      · show (if (0 : Int64) = 0 then x.creditEffects else x.creditEffects ++ [event.id]) = _
        exact if_pos rfl
      exact hrule err herror ((hmarked _).2 (.inr rfl))
  | queryLost _ err =>
      rw [served_self]
      have hdone : ∀ price id, weight price id (event, afterMark parsers event (.error err)) = 0 :=
        fun price id => nonpos_iff_eq_zero.1 weight_le
      refine h.serve_unmarked rfl rfl (.handling rfl fun hne => by cases hne)
        (fun hat => by cases hat) (fun id => ?_) (fun id => ?_) fun _ hin => ?_
      · rw [due_middle, due_middle, hdone, add_zero]
        exact le_self_add
      · rw [due_middle, due_middle, hdone, add_zero]
        exact le_self_add
      · have hfalse : atMark (.call (.query (.markStripeEventProcessed event.id event.type))
          (afterMark parsers event)) = false := (at_eq_false hin.1).2
        cases hfalse
  | queryUnanswered _ err => exact absurd ((hmarked _).2 (.inr rfl)) (hrule err rfl)

/-- A delivery at handling its event. -/
lemma serve_handling {op : BillingCall} {next : op.Answer → DeliveryClient} {ans : op.Answer}
    {s' : BillingState D} (h : Delivered parsers ⟨x, before ++ (event, .call op next) :: after⟩)
    (hcost : (Client.call op next).cost (callPrice 1 0 0) = 0)
    (hyields : (Client.call op next).Yields (· ≠ .ok .alreadyProcessed))
    (hserves : x.billing.Serves env op ans s')
    (hrule : ∀ err, next ans = .done (.error err) → event.id ∉ (x.served event op s').marked) :
    Delivered parsers ⟨x.served event op s', before ++ (event, next ans) :: after⟩ := by
  obtain ⟨hcheck, hmark⟩ := at_eq_false hcost
  have hboth := Client.price_add_cost_le (callPrice 1 0 0) op next ans
  rw [hcost] at hboth
  have hfree : callPrice 1 0 0 op = 0 := by
    exact_mod_cast nonpos_iff_eq_zero.1 (le_self_add.trans hboth)
  have hnext : (next ans).cost (callPrice 1 0 0) = 0 :=
    nonpos_iff_eq_zero.1 (le_add_self.trans hboth)
  have hmarked : (x.served event op s').marked = x.marked := by
    show s'.db.processedStripeEvents.map (·.1) = _
    rw [hserves.processed_eq hfree]
    rfl
  have hweight : ∀ (price : BillingCall → ℕ) (id : String), event.id = id →
      price op + weight price id (event, next ans) ≤ weight price id (event, .call op next) := by
    intro price id hid
    have hfull : weight price id (event, .call op next) = (Client.call op next).cost price :=
      if_pos ⟨hid, hcheck, hmark⟩
    rw [hfull]
    exact (add_le_add le_rfl weight_le).trans (Client.price_add_cost_le price op next ans)
  refine h.serve_unmarked hmarked rfl (.handling hnext (hyields ans)) (fun hat => ?_)
    (fun id => due_served (count_rowEffects hserves id) (hweight _ id))
    (fun id => due_served (count_creditEffects id) (hweight _ id)) fun hmem _ =>
      ⟨hnext, hyields ans, fun err herror => hrule err herror (hmarked ▸ hmem)⟩
  rw [(at_eq_false hnext).2] at hat
  cases hat

/-- The step lemma. -/
lemma step {p q : Deliveries D} {ev : DeliveryEvent}
    (hstep : Calls.Step (stripeServer env parsers) p ev q)
    (hrule : StripeRule p.shared ev q.shared) (h : Delivered parsers p) :
    Delivered parsers q := by
  obtain ⟨x, live⟩ := p
  cases hstep with
  | @started event t hstarts =>
      obtain rfl : t = (stripeWebhook parsers event).run := hstarts
      rw [stripeWebhook_run]
      set t : DeliveryClient :=
        .call (.query (.isStripeEventProcessed event.id)) (afterCheck parsers event) with ht
      have hnothing : ∀ price id, weight price id (event, t) = 0 := fun price id =>
        if_neg fun h => by cases h.2.1
      refine ⟨fun c hc => ?_, fun id => ?_, fun id => ?_, fun id => ?_, fun id hid => ?_,
        h.skipped⟩
      · rcases List.mem_append.1 hc with hc | hc
        · exact h.stages c hc
        · obtain rfl := List.mem_singleton.1 hc
          exact .fresh
      · show ((live ++ [(event, t)]).countP fun c => c.1.id = id && atMark c.2) ≤ _
        rw [List.countP_append, List.countP_singleton]
        have hnot : ¬ (decide (event.id = id) && atMark t) = true := by
          rw [show atMark t = false from rfl, Bool.and_false]
          exact Bool.false_ne_true
        rw [if_neg hnot, add_zero]
        exact h.marking id
      · rw [due_append, hnothing, add_zero]
        exact h.rows id
      · rw [due_append, hnothing, add_zero]
        exact h.credits id
      · rcases h.handled id hid with hended | ⟨c, hc, hhand⟩
        · exact .inl hended
        · exact .inr ⟨c, List.mem_append_left _ hc, hhand⟩
  | @served before after event op next ans x' hlive hserves =>
      obtain ⟨s', hserves, rfl⟩ := hserves
      obtain rfl : live = before ++ (event, .call op next) :: after := hlive
      obtain ⟨hfirst, herror⟩ := hrule
      have hstage : Stage parsers event x.marked (.call op next) :=
        h.stages (event, .call op next) (List.mem_append_right _ List.mem_cons_self)
      generalize hclient : Client.call op next = t at hstage
      cases hstage with
      | fresh =>
          cases hclient
          exact h.serve_check hserves hfirst
      | marking =>
          cases hclient
          refine h.serve_marking hserves fun err heq => ?_
          exact (herror err heq).resolve_left fun hne => by cases hne
      | handling hcost hyields =>
          subst hclient
          refine h.serve_handling hcost hyields hserves fun err heq => ?_
          refine (herror err heq).resolve_left fun hop => ?_
          subst hop
          have hfalse := (at_eq_false hcost).1
          cases hfalse
      | skipped hmarked => cases hclient
  | @ended before after event r hlive =>
      obtain rfl : live = before ++ (event, .done r) :: after := hlive
      have hrest : ∀ c ∈ before ++ after, c ∈ before ++ (event, .done r) :: after := fun c hc =>
        mem_of_rest (List.mem_append.1 hc) _
      have hdue : ∀ price id (effects : List String), due price id effects (before ++ after) ≤
          due price id effects (before ++ (event, .done r) :: after) := fun price id effects => by
        rw [due_middle]
        exact le_self_add
      refine ⟨fun c hc => h.stages c (hrest c hc), fun id => ?_, fun id => (hdue _ id _).trans
        (h.rows id), fun id => (hdue _ id _).trans (h.credits id), fun id hid => ?_,
        fun id hid => ?_⟩
      · have hold := h.marking id
        simp only [List.countP_append, List.countP_cons] at hold ⊢
        exact (Nat.add_le_add_left (Nat.le_add_right _ _) _).trans hold
      · rcases h.handled id hid with hended | ⟨c, hc, hcid, hhand⟩
        · exact .inl (List.mem_append_left _ hended)
        · rcases rest_or_eq hc with hc | rfl
          · exact .inr ⟨c, List.mem_append.2 hc, hcid, hhand⟩
          · -- a delivery at handling its event that has ended has handled it
            obtain ⟨-, hyields, hnoerror⟩ := hhand
            left
            rcases r with err | _ | _
            · exact absurd rfl (hnoerror err)
            · exact absurd rfl hyields
            · exact List.mem_append_right _ (List.mem_singleton.2 (hcid ▸ rfl))
      · rcases List.mem_append.1 hid with hid | hid
        · exact h.skipped id hid
        · have heq := List.mem_singleton.1 hid
          rw [Prod.mk.injEq] at heq
          obtain ⟨rfl, rfl⟩ := heq
          have hstage : Stage parsers event x.marked (.done (.ok .alreadyProcessed)) :=
            h.stages (event, .done (.ok .alreadyProcessed))
              (List.mem_append_right _ List.mem_cons_self)
          cases hstage with
          | handling _ hyields => exact absurd rfl hyields
          | skipped hmarked => exact hmarked
  | @other x' hothers =>
      obtain ⟨s', hprocessed, rfl⟩ := hothers
      have hmarked : ({ x with billing := s' } : Delivering D).marked = x.marked := by
        show s'.db.processedStripeEvents.map (·.1) = _
        rw [hprocessed]
        rfl
      refine ⟨fun c hc => ?_, fun id => ?_, fun id => ?_, fun id => ?_, fun id hid => ?_,
        fun id hid => ?_⟩
      · rw [hmarked]
        exact h.stages c hc
      · rw [hmarked]
        exact h.marking id
      · rw [hmarked]
        exact h.rows id
      · rw [hmarked]
        exact h.credits id
      · rw [hmarked] at hid
        exact h.handled id hid
      · rw [hmarked]
        exact h.skipped id hid

end Delivered

/-- **Events take effect once.**  In a run that keeps to the rule, every event changes a
subscription at most once and a balance at most once; every event that has been marked has been
handled, or is being handled; and only such events are skipped. -/
theorem stripe_events_once {s : BillingState D} {p : Deliveries D}
    (hnew : s.db.processedStripeEvents = [])
    (hrun : Calls.Run (stripeServer env parsers) StripeRule ⟨.start s, []⟩ p) (id : String) :
    p.shared.rowEffects.count id ≤ 1 ∧ p.shared.creditEffects.count id ≤ 1 ∧
      (id ∈ p.shared.marked → EventHandled p id) ∧
      ((id, .ok .alreadyProcessed) ∈ p.shared.outcomes → EventHandled p id) := by
  have hempty : (Delivering.start s).marked = [] := by
    show s.db.processedStripeEvents.map (·.1) = []
    rw [hnew]
    rfl
  have hstart : Delivered parsers (⟨.start s, []⟩ : Deliveries D) :=
    { stages := fun c hc => absurd hc List.not_mem_nil
      marking := fun id => Nat.zero_le _
      rows := fun id => zero_le
      credits := fun id => zero_le
      handled := fun id hid => absurd (hempty ▸ hid) List.not_mem_nil
      skipped := fun id hid => absurd hid List.not_mem_nil }
  have hend := hrun.invariant (fun hstep hrule h => h.step hstep hrule) hstart
  have hcount : ∀ {price : BillingCall → ℕ} {effects : List String},
      due price id effects p.live ≤ (if id ∈ p.shared.marked then 1 else 0) →
        effects.count id ≤ 1 := by
    intro price effects hdue
    have hone : (effects.count id : ℕ∞) ≤ 1 :=
      le_self_add.trans (hdue.trans (by split <;> simp))
    exact_mod_cast hone
  exact ⟨hcount (hend.rows id), hcount (hend.credits id), hend.handled id,
    fun hskipped => hend.handled id (hend.skipped id hskipped)⟩

end Once

/-! ## An event that is never handled -/

section Lost

def stripeUser : Uuid := ⟨List.replicate 16 4, rfl⟩

def activeSubscription : Subscription where
  userId := stripeUser
  userEmail := "unknown"
  planId := stripeUser
  stripeCustomerId := some "cus_1"
  stripeSubscriptionId := some "sub_1"
  subscriptionStatus := "active"
  periodStart := none
  periodEnd := none

/-- Billing with one subscription. -/
def oneSubscription : BillingState Unit where
  db := { plans := [], subscriptions := [activeSubscription], processedStripeEvents := [] }
  node := .blank .empty

/-- The payment for the subscription is overdue. -/
def pastDue : StripeEvent where
  id := "evt_1"
  type := "customer.subscription.updated"
  object := .ok (.customerSubscriptionUpdated (.ok
    { id := "sub_1"
      status := some "past_due"
      currentPeriodStart := none
      currentPeriodEnd := none
      items := none }))

def noParsers : IdParsers := ⟨fun _ => none, fun _ => none⟩

def stripeEnv : Env Unit := Env.plain "node" 1000

/-- The calls of a delivery of the event. -/
lemma handling_pastDue (parsers : IdParsers) : ∃ next₁ next₂,
    (handling parsers pastDue).run =
        .call (.query (.getSubscriptionByStripeSubscription "sub_1")) next₁ ∧
      next₁ (.ok (some activeSubscription)) =
        .call (.query (.updateSubscriptionStatus stripeUser "past_due")) next₂ ∧
      next₂ (.ok ()) = .done (.ok .handled) ∧
      ∀ err, next₁ (.error err) = .done (.error err) :=
  ⟨_, _, rfl, rfl, rfl, fun _ => rfl⟩

/-- A call of the only delivery under way. -/
lemma step_call (x : Delivering Unit) (event : StripeEvent) {op : BillingCall}
    (next : op.Answer → DeliveryClient) {ans : op.Answer} {s' : BillingState Unit}
    (hserves : x.billing.Serves stripeEnv op ans s') :
    Calls.Step (stripeServer stripeEnv noParsers) ⟨x, [(event, .call op next)]⟩
      (.served [] event op next ans) ⟨x.served event op s', [(event, next ans)]⟩ :=
  .served_alone ⟨s', hserves, rfl⟩

lemma step_query (x : Delivering Unit) (event : StripeEvent) (q : Query)
    (next : Except AppError q.Row → DeliveryClient) {r : Except AppError q.Row} {db : BillingDb}
    (hrun : x.billing.db.run q = (r, db)) :
    Calls.Step (stripeServer stripeEnv noParsers) ⟨x, [(event, .call (.query q) next)]⟩
      (.served [] event (.query q) next r)
      ⟨x.served event (.query q) { x.billing with db := db }, [(event, next r)]⟩ := by
  have hserves : x.billing.Serves stripeEnv _ _ _ := .queried q
  rw [hrun] at hserves
  exact step_call x event next hserves

lemma step_start (x : Delivering Unit) (event : StripeEvent) :
    Calls.Step (stripeServer stripeEnv noParsers) ⟨x, []⟩
      (.started event (stripeWebhook noParsers event).run)
      ⟨x, [(event, .call (.query (.isStripeEventProcessed event.id))
        (afterCheck noParsers event))]⟩ := by
  rw [← stripeWebhook_run]
  exact .started rfl

/-- The event has been delivered and marked. -/
lemma run_marked {C : Delivering Unit → DeliveryEvent → Delivering Unit → Prop}
    (hC : ∀ x ev x', StripeRule x ev x' → C x ev x') :
    ∃ x, Calls.Run (stripeServer stripeEnv noParsers) C ⟨.start oneSubscription, []⟩
        ⟨x, [(pastDue, (handling noParsers pastDue).run)]⟩ ∧
      x.billing.db.subscriptions = [activeSubscription] ∧
      x.billing.db.processedStripeEvents = [("evt_1", "customer.subscription.updated")] ∧
      x.outcomes = [] ∧ x.rowEffects = [] := by
  set x₀ := Delivering.start oneSubscription
  have hcheck := step_query x₀ pastDue (.isStripeEventProcessed "evt_1")
    (afterCheck noParsers pastDue) (show _ = (.ok false, x₀.billing.db) from rfl)
  rw [show afterCheck noParsers pastDue (.ok false) = _ from markAndHandle_run _ _] at hcheck
  set x₁ := x₀.served pastDue (.query (.isStripeEventProcessed "evt_1")) x₀.billing
  have hmark := step_query x₁ pastDue
    (.markStripeEventProcessed "evt_1" "customer.subscription.updated")
    (afterMark noParsers pastDue) (show _ = (.ok (), { x₁.billing.db with
      processedStripeEvents := [("evt_1", "customer.subscription.updated")] }) from rfl)
  have hbegin : Calls.Run (stripeServer stripeEnv noParsers) C ⟨.start oneSubscription, []⟩
    ⟨.start oneSubscription, []⟩ := .refl
  have hrun := ((hbegin.step (step_start _ pastDue) (hC _ _ _ trivial)).step hcheck
    (hC _ _ _ ⟨fun _ c hc => absurd hc List.not_mem_nil, fun _ _ => .inl rfl⟩)).step hmark
      (hC _ _ _ ⟨fun _ c hc => absurd hc List.not_mem_nil, fun err herr => by cases herr⟩)
  exact ⟨_, hrun, rfl, rfl, rfl, rfl⟩

/-- A delivery without a failure. -/
theorem stripe_events_once_pastDue : ∃ p : Deliveries Unit,
    p.shared.outcomes = [("evt_1", .ok .handled)] ∧ p.shared.rowEffects.count "evt_1" ≤ 1 ∧
      p.shared.creditEffects.count "evt_1" ≤ 1 ∧
      ("evt_1" ∈ p.shared.marked → EventHandled p "evt_1") ∧
      (("evt_1", .ok .alreadyProcessed) ∈ p.shared.outcomes → EventHandled p "evt_1") := by
  obtain ⟨x, hrun, hsubs, -, houtcomes, -⟩ :=
    run_marked (C := StripeRule) fun _ _ _ h => h
  obtain ⟨next₁, next₂, hfirst, hsecond, hdone, -⟩ := handling_pastDue noParsers
  rw [hfirst] at hrun
  have hfind : x.billing.db.run (.getSubscriptionByStripeSubscription "sub_1") =
      (.ok (some activeSubscription), x.billing.db) := by
    show (Except.ok (x.billing.db.subscriptions.find? _), x.billing.db) = _
    rw [hsubs]
    rfl
  have hfound := step_query x pastDue _ next₁ hfind
  set x₁ := x.served pastDue (.query (.getSubscriptionByStripeSubscription "sub_1")) x.billing
  have hupdated := step_query x₁ pastDue (.updateSubscriptionStatus stripeUser "past_due") next₂
    (show _ = (.ok (), _) from rfl)
  rw [hdone] at hupdated
  rw [hsecond] at hfound
  have hfinal := ((hrun.step hfound ⟨fun _ c hc => absurd hc List.not_mem_nil, fun err herr => by
    rw [hsecond] at herr
    cases herr⟩).step hupdated ⟨fun _ c hc => absurd hc List.not_mem_nil, fun err herr => by
      rw [hdone] at herr
      cases herr⟩).step (.ended_alone) trivial
  refine ⟨_, ?_, stripe_events_once rfl hfinal "evt_1"⟩
  show x.outcomes ++ [("evt_1", .ok .handled)] = _
  rw [houtcomes]
  rfl

/-- The event is delivered, marked, and its handling fails; when it is delivered again it is
skipped, and nobody ever handles it. -/
theorem stripe_event_lost : ∃ p : Deliveries Unit,
    Calls.Run (stripeServer stripeEnv noParsers) (fun _ _ _ => True)
      ⟨.start oneSubscription, []⟩ p ∧ p.live = [] ∧
      p.shared.outcomes = [("evt_1", .error (.database "connection closed")),
        ("evt_1", .ok .alreadyProcessed)] ∧
      p.shared.rowEffects = [] ∧ ¬ EventHandled p "evt_1" := by
  obtain ⟨x, hrun, -, hprocessed, houtcomes, hrows⟩ :=
    run_marked (C := fun _ _ _ => True) fun _ _ _ _ => trivial
  obtain ⟨next₁, next₂, hfirst, -, -, herror⟩ := handling_pastDue noParsers
  rw [hfirst] at hrun
  have hlost := step_call x pastDue next₁ (.queryLost _ (.database "connection closed"))
  rw [Delivered.served_self, herror] at hlost
  have hfailed := Calls.Step.ended_alone (S := stripeServer stripeEnv noParsers) (k := pastDue)
    (a := .error (.database "connection closed")) (s := x)
  set x₁ := (stripeServer stripeEnv noParsers).ends pastDue
    (.error (.database "connection closed")) x with hx₁
  have hmarked : x₁.billing.db.run (.isStripeEventProcessed "evt_1") =
      (.ok true, x₁.billing.db) := by
    show (Except.ok (x.billing.db.processedStripeEvents.any _), x.billing.db) = _
    rw [hprocessed]
    rfl
  have hskipped := step_query x₁ pastDue (.isStripeEventProcessed "evt_1")
    (afterCheck noParsers pastDue) hmarked
  rw [show x₁.served pastDue _ x₁.billing = x₁ from Delivered.served_self _ _ _] at hskipped
  have hended := Calls.Step.ended_alone (S := stripeServer stripeEnv noParsers) (k := pastDue)
    (a := .ok .alreadyProcessed) (s := x₁)
  have hfinal := ((((hrun.step hlost trivial).step hfailed trivial).step (step_start x₁ pastDue)
    trivial).step hskipped trivial).step hended trivial
  have houtcomes : (x₁.outcomes ++ [(pastDue.id, .ok .alreadyProcessed)]) =
      [("evt_1", .error (.database "connection closed")), ("evt_1", .ok .alreadyProcessed)] := by
    show (x.outcomes ++ _) ++ _ = _
    rw [houtcomes]
    rfl
  refine ⟨_, hfinal, rfl, houtcomes, hrows, ?_⟩
  · rintro (hended | ⟨c, hc, -⟩)
    · have hmem : (("evt_1", .ok .handled) : String × Except AppError WebhookOutcome) ∈
        x₁.outcomes ++ [(pastDue.id, .ok .alreadyProcessed)] := hended
      rw [houtcomes] at hmem
      simp at hmem
    · cases hc

end Lost

end Shardd
