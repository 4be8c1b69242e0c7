import Shardd.Lib.Traced
import Shardd.Node.Calls
import Shardd.Node.Service
import Shardd.Node.Startup

/-!
# The balances in an answer

The answer to a request carries the balance and the available balance of the account.  They are read
when `create_local_events` has returned the event, which by then has been applied; the account's
lock has been given back, and each figure is read in an attempt of its own to take it again.  A lock
that another call holds at that moment makes the figure zero.

The requests run here among any other calls of the node, interrupted before every action, and leave
a trace of the node's states.
-/

namespace Shardd

variable {D : Type}

/-! ## Programs -/

/-- The suspension points: those of the node's programs, the points between two actions, and the two
readings of an account. -/
inductive ServiceWait
  | node (l : Wait)
  | step
  | readBalance (key : BalanceKey)
  | readAvailable (key : BalanceKey) (now : ℕ)
  deriving DecidableEq

def ServiceWait.ready : ServiceWait → Traced (SharedState D) → Bool
  | .node l, S => l.ready S.now
  | _, _ => true

abbrev ServiceM (D : Type) := Proc (Traced (SharedState D)) ServiceWait

/-- A program of the node, interrupted before every action. -/
abbrev traced {α : Type} (t : NodeM D α) : ServiceM D α := t.traced .node .step false

/-- The answer to a request, with the states since `create_local_events` has returned. -/
abbrev TracedResponse (D : Type) := Except NodeRpcError CreateEventResponse × List (SharedState D)

variable (env : Env D)

/-- `createEvent`, interrupted before every action. -/
def createEventTraced (phase : NodePhase) (req : CreateEventRequest) :
    ServiceM D (TracedResponse D) := do
  match validateEventNote req.note with
  | .error message => return (.error (.invalidInput message), [])
  | .ok () =>
  if !req.allowReservedBucket && isReservedBucketName req.bucket then
    return (.error (.invalidInput ("bucket name '" ++ req.bucket ++ "' is reserved")), [])
  match phase with
  | .shuttingDown => return (.error (.serviceUnavailable "node shutting down"), [])
  | .warming => return (.error (.serviceUnavailable "node warming up"), [])
  | .ready =>
  match ← traced (createLocalEvents env req.input).run with
  | .error err => return (.error (err.toRpc (req.maxOverdraft.getD 0)), [])
  | .ok result =>
    let first ← Proc.read Traced.index
    let event := result.primaryEvent
    Proc.suspend (.readBalance event.balanceKey)
    let balance ← Proc.read fun S => S.now.accountBalance event.balanceKey
    let now ← traced (nowMs env)
    Proc.suspend (.readAvailable event.balanceKey now)
    let available ← Proc.read fun S => S.now.accountAvailableBalance event.balanceKey now
    let since ← Proc.read fun S => S.since first
    return (.ok { event := event
                  emittedEvents := result.emittedEvents
                  balance := balance
                  availableBalance := available
                  deduplicated := result.emittedEvents.isEmpty }, since)

inductive ServiceAnswer (D : Type)
  | response (r : TracedResponse D)
  | node (a : NodeAnswer)

/-- A request, or any other call of a node. -/
inductive ServiceCall
  | createEvent (phase : NodePhase) (req : CreateEventRequest)
  | node (c : NodeCall)

def ServiceCall.program : ServiceCall → ServiceM D (ServiceAnswer D)
  | .createEvent phase req => do
      let r ← createEventTraced env phase req
      return .response r
  | .node c => do
      let a ← traced (c.program env)
      return .node a

/-- Call `i` is resumed. -/
def Traced.resumed (i : ℕ) (S : Traced (SharedState D)) : Traced (SharedState D) :=
  S.move (S.now.resumed i)

def serviceScheduler : Scheduler (Traced (SharedState D)) ServiceWait (ServiceAnswer D) where
  ready := ServiceWait.ready
  enter := Traced.resumed
  starts l t := l = .node .start ∧ ∃ c : ServiceCall, t = c.program env

/-! ## Alone -/

lemma exec_traced_node {α : Type} (t : NodeM D α) (S : Traced (SharedState D)) :
    ∃ S', Proc.exec ServiceWait.ready (traced t) S = ((NodeM.exec t S.now).1, S') ∧
      S'.now = (NodeM.exec t S.now).2 := by
  have hready : ∀ l (S : Traced (SharedState D)),
      ServiceWait.ready (.node l) S = l.ready S.now := fun _ _ => rfl
  have hstep : ∀ S : Traced (SharedState D), ServiceWait.ready .step S = true := fun _ => rfl
  obtain ⟨hanswer, hstate⟩ := Proc.exec_traced hready hstep t false S
  exact ⟨_, Prod.ext hanswer rfl, hstate⟩

/-- A request that nothing interrupts is answered as by `createEvent`. -/
theorem exec_createEventTraced (phase : NodePhase) (req : CreateEventRequest)
    (S : Traced (SharedState D)) :
    (Proc.exec ServiceWait.ready (createEventTraced env phase req) S).1.map Prod.fst =
        (NodeM.exec (createEvent env phase req).run S.now).1 ∧
      (Proc.exec ServiceWait.ready (createEventTraced env phase req) S).2.now =
        (NodeM.exec (createEvent env phase req).run S.now).2 := by
  cases hnote : validateEventNote req.note with
  | error message =>
      simp only [createEventTraced, createEvent, NodeM.exec, hnote]
      exact ⟨rfl, rfl⟩
  | ok u =>
      by_cases hgate : (!req.allowReservedBucket && isReservedBucketName req.bucket) = true
      · simp only [createEventTraced, createEvent, NodeM.exec, hnote, if_pos hgate]
        exact ⟨rfl, rfl⟩
      cases phase with
      | warming =>
          simp only [createEventTraced, createEvent, NodeM.exec, hnote, if_neg hgate]
          exact ⟨rfl, rfl⟩
      | shuttingDown =>
          simp only [createEventTraced, createEvent, NodeM.exec, hnote, if_neg hgate]
          exact ⟨rfl, rfl⟩
      | ready =>
          obtain ⟨S', hcreate, hnow⟩ := exec_traced_node (createLocalEvents env req.input).run S
          simp only [createEventTraced, createEvent, NodeM.exec, hnote, if_neg hgate,
            Proc.exec_bind, hcreate, Proc.exec_run_bind, Proc.exec_run_lift]
          rcases hrun : Proc.exec Wait.ready (createLocalEvents env req.input).run S.now with
            ⟨_ | err | result, s'⟩
          · rw [NodeM.exec, hrun] at hnow
            exact ⟨rfl, hnow⟩
          · rw [NodeM.exec, hrun] at hnow
            exact ⟨rfl, hnow⟩
          · rw [NodeM.exec, hrun] at hnow
            obtain rfl : S'.now = s' := hnow
            exact ⟨rfl, rfl⟩

/-! ## Real figures -/

/-- The available balance of an account, at the time of the state. -/
def SharedState.availableNow (s : SharedState D) (key : BalanceKey) : Int64 :=
  (s.account key).availableBalance (env.clock s.clockReads)

/-- Each figure of the response is one that the account had in one of the states. -/
structure Reported (since : List (SharedState D)) (r : CreateEventResponse) : Prop where
  balance : ∃ s ∈ since, (s.account r.event.balanceKey).balance = r.balance
  available : ∃ s ∈ since, s.availableNow env r.event.balanceKey = r.availableBalance

/-- An account is read when its lock is free, and its available balance when no hold has expired
since the reading of the clock. -/
def UnlockedReads : ServiceWait → Traced (SharedState D) → Prop
  | .readBalance key, S => S.now.accountLocks key = none
  | .readAvailable key now, S => S.now.accountLocks key = none ∧
      (S.now.account key).availableBalance now = S.now.availableNow env key
  | _, _ => True

instance (l : ServiceWait) (S : Traced (SharedState D)) : Decidable (UnlockedReads env l S) := by
  unfold UnlockedReads
  split <;> infer_instance

section Runs

variable {env} {i : ℕ} {S₀ S : Traced (SharedState D)}

lemma visited_resumed (S : Traced (SharedState D)) : S.visited <+: (S.resumed i).visited :=
  S.prefix_move _

/-- What is shown of an answer. -/
def TracedResponse.Real (env : Env D) (a : TracedResponse D) (S : Traced (SharedState D)) : Prop :=
  ∀ r, a.1 = .ok r → a.2 <:+: S.visited ∧ Reported env a.2 r

lemma runs_traced {α : Type} (t : NodeM D α) {P : Traced (SharedState D) → Prop}
    (hstable : ∀ S S', S.visited <+: S'.visited → P S → P S')
    (hgrown : S₀.visited <+: S.visited) (hP : P S) :
    (traced t).wp ServiceWait.ready Traced.resumed (traceContract _ _) (UnlockedReads env) i
      (fun _ S₀ S => S₀.visited <+: S.visited ∧ P S) S₀ S :=
  wp_traced visited_resumed ServiceWait.node .step false t hstable hgrown hP

/-- The account has had this balance since the state with index `first`. -/
structure HasHad (first : ℕ) (key : BalanceKey) (balance : Int64) (S : Traced (SharedState D)) :
    Prop where
  index : first ≤ S.index
  had : ∃ s ∈ S.since first, (s.account key).balance = balance

lemma HasHad.of_prefix {first : ℕ} {key : BalanceKey} {balance : Int64}
    {S S' : Traced (SharedState D)} (h : S.visited <+: S'.visited)
    (hS : HasHad first key balance S) : HasHad first key balance S' := by
  obtain ⟨hindex, s, hmem, hs⟩ := hS
  exact ⟨hindex.trans (Traced.index_le_of_prefix h), s, Traced.mem_since_of_prefix h hmem, hs⟩

lemma runs_createEventTraced (phase : NodePhase) (req : CreateEventRequest)
    (hgrown : S₀.visited <+: S.visited) :
    (createEventTraced env phase req).wp ServiceWait.ready Traced.resumed (traceContract _ _)
      (UnlockedReads env) i (fun a S₀ S => S₀.visited <+: S.visited ∧ TracedResponse.Real env a S)
      S₀ S := by
  have hrefused : ∀ err (S : Traced (SharedState D)),
      TracedResponse.Real env (.error err, []) S := fun err S r h => by cases h
  unfold createEventTraced
  split
  · exact ⟨hgrown, hrefused _ _⟩
  split
  · exact ⟨hgrown, hrefused _ _⟩
  split
  · exact ⟨hgrown, hrefused _ _⟩
  · exact ⟨hgrown, hrefused _ _⟩
  apply Proc.wp_bind
  refine Proc.wp_mono (fun r S₀ S hgrown => ?_)
    (runs_traced (createLocalEvents env req.input).run (P := fun _ => True)
      (fun _ _ _ _ => trivial) hgrown trivial)
  cases r with
  | error err => exact ⟨hgrown.1, hrefused _ _⟩
  | ok result =>
      dsimp only
      apply Proc.wp_bind
      rw [Proc.wp_read]
      generalize hfirst : S.index = first
      generalize hkey : result.primaryEvent.balanceKey = key
      apply Proc.wp_bind
      refine Proc.wp_suspend (traceContract_rests hgrown.1 (P := fun S => first ≤ S.index)
        (fun S S' h hle => hle.trans (Traced.index_le_of_prefix h)) hfirst.ge
        fun S₁ hindex _ hfree => ?_)
      apply Proc.wp_bind
      rw [Proc.wp_read]
      generalize hbalance : (S₁.resumed i).now.accountBalance key = balance
      have hread : HasHad first key balance (S₁.resumed i) := by
        have hle : first ≤ (S₁.resumed i).index :=
          hindex.trans (Traced.index_le_of_prefix (visited_resumed S₁))
        refine ⟨hle, (S₁.resumed i).now, Traced.now_mem_since hle, ?_⟩
        rw [← hbalance]
        exact (if_pos hfree).symm
      apply Proc.wp_bind
      refine Proc.wp_mono (fun now S₀ S h => ?_)
        (runs_traced (nowMs env) (fun _ _ => HasHad.of_prefix) (visited_resumed S₁) hread)
      apply Proc.wp_bind
      refine Proc.wp_suspend (traceContract_rests h.1 (fun _ _ => HasHad.of_prefix) h.2
        fun S₂ hread _ hfree => ?_)
      have hread' : HasHad first key balance (S₂.resumed i) := hread.of_prefix (visited_resumed S₂)
      refine ⟨visited_resumed S₂, fun r hr => ?_⟩
      cases hr
      subst hkey
      refine ⟨(List.drop_suffix _ _).isInfix, hread'.had, (S₂.resumed i).now,
        Traced.now_mem_since hread'.index, ?_⟩
      exact hfree.2.symm.trans (if_pos hfree.1).symm

lemma service_startsKept :
    Pool.StartsKept (serviceScheduler env) (traceContract _ _) (UnlockedReads env)
      fun _ a S => ∀ r, a = .response r → TracedResponse.Real env r S where
  absent _ := .true _ _
  stable _ _ _ _ S' _ hreal hguar r hr r' hr' :=
    ⟨(hreal r hr r' hr').1.trans hguar.isInfix, (hreal r hr r' hr').2⟩
  pause _ _ _ _ _ _ _ := trivial
  start := by
    rintro l t ⟨-, c, rfl⟩ i S - - - -
    cases c with
    | createEvent phase req =>
        apply Proc.wp_bind
        refine Proc.wp_mono (fun r S₀ S h => ?_)
          (runs_createEventTraced phase req (visited_resumed S))
        refine ⟨trivial, h.1, fun r' hr' => ?_⟩
        cases hr'
        exact h.2
    | node c =>
        apply Proc.wp_bind
        refine Proc.wp_mono (fun a S₀ S h => ?_)
          (runs_traced (c.program env) (P := fun _ => True) (fun _ _ _ _ => trivial)
            (visited_resumed S) trivial)
        refine ⟨trivial, h.1, fun r' hr' => ?_⟩
        cases hr'

/-- **Reported balances.**  However requests and the other calls of a node interleave: if each
balance is read while the account's lock is free, and no hold expires while the available balance is
being read, the figures of every answer are ones the account had after the event was returned. -/
theorem reported_of_run {start : SharedState D}
    {p : Pool (Traced (SharedState D)) ServiceWait (ServiceAnswer D)}
    (h : Pool.Reach (serviceScheduler env) (UnlockedReads env) (.start start) p) {i : ℕ}
    {r : CreateEventResponse} {since : List (SharedState D)}
    (hi : p.calls i = .finished (.response (.ok r, since))) :
    since <:+: p.shared.visited ∧ Reported env since r := by
  have hsound := Pool.sound_of_reach service_startsKept trivial (fun _ => trivial) h
  exact hsound.finished i _ hi _ rfl r rfl

end Runs

/-! ## Two runs -/

/-- Start the calls, numbered from zero, and resume them in the given order. -/
def playService (C : ServiceWait → Traced (SharedState D) → Prop) [∀ l S, Decidable (C l S)]
    (s : SharedState D) (calls : List ServiceCall) (order : List ℕ) :
    Pool (Traced (SharedState D)) ServiceWait (ServiceAnswer D) :=
  Pool.play (serviceScheduler env) C ⟨.start s, fun _ => .absent⟩
    ((calls.zipIdx.map fun c => .start c.2 (.node .start) (c.1.program env)) ++ order.map .resume)

lemma reach_playService {C : ServiceWait → Traced (SharedState D) → Prop}
    [∀ l S, Decidable (C l S)] {s : SharedState D} {calls : List ServiceCall} {order : List ℕ} :
    Pool.Reach (serviceScheduler env) C (.start s) (playService env C s calls order) := by
  apply Pool.Reach.init.play
  intro m hm
  rcases List.mem_append.1 hm with hm | hm
  · obtain ⟨c, -, rfl⟩ := List.mem_map.1 hm
    exact ⟨rfl, c.1, rfl⟩
  · obtain ⟨i, -, rfl⟩ := List.mem_map.1 hm
    trivial

section Deposits

/-- The answer with which call `i` has succeeded. -/
def answered (p : Pool (Traced (SharedState D)) ServiceWait (ServiceAnswer D)) (i : ℕ) :
    Option (CreateEventResponse × List (SharedState D)) :=
  match p.calls i with
  | .finished (.response (.ok r, since)) => some (r, since)
  | _ => none

lemma calls_of_answered {p : Pool (Traced (SharedState D)) ServiceWait (ServiceAnswer D)} {i : ℕ}
    {a : CreateEventResponse × List (SharedState D)} (h : answered p i = some a) :
    p.calls i = .finished (.response (.ok a.1, a.2)) := by
  unfold answered at h
  split at h
  · rename_i hcall
    cases h
    exact hcall
  · cases h

def depositOfFive : CreateEventRequest where
  bucket := "bucket"
  account := "alice"
  amount := 5
  note := none
  idempotencyNonce := "n1"
  maxOverdraft := none
  holdAmount := none
  holdExpiresAtUnixMs := none
  settleReservation := none
  releaseReservation := none
  skipHold := none
  allowReservedBucket := false
  transferTo := none

/-- A deposit of ten at another node. -/
def depositOfTen : Event :=
  (LocalCreateInput.legacy "bucket" "alice" 10 none 0 "n2" false).chargeDraft.event "e1" "peer"
    (1, 1) 900

def deposits : List ServiceCall := [.createEvent .ready depositOfFive, .node (.insert depositOfTen)]

/-- Alice has ten. -/
def fundedNode : SharedState Unit :=
  { SharedState.blank .empty with
    accounts := Map.insert (fun _ => none) ("bucket", "alice") (AccountState.new.post 10) }

/-- The balances an answer reports, with those the account has had in the run. -/
def balancesOf (p : Pool (Traced (SharedState D)) ServiceWait (ServiceAnswer D)) (i : ℕ) :
    Option (Int64 × Int64 × List Int64) :=
  (answered p i).map fun a => (a.1.balance, a.1.availableBalance,
    (p.shared.visited.map fun s => (s.account a.1.event.balanceKey).balance).dedup)

lemma reports_of_balancesOf {p : Pool (Traced (SharedState D)) ServiceWait (ServiceAnswer D)}
    {i : ℕ} {balance available : Int64} {had : List Int64}
    (h : balancesOf p i = some (balance, available, had)) :
    ∃ r since, p.calls i = .finished (.response (.ok r, since)) ∧ r.balance = balance ∧
      ∀ s ∈ p.shared.visited, (s.account r.event.balanceKey).balance ∈ had := by
  obtain ⟨a, hanswered, hread⟩ := Option.map_eq_some_iff.1 h
  obtain ⟨rfl, hrest⟩ := Prod.mk.inj hread
  obtain ⟨-, rfl⟩ := Prod.mk.inj hrest
  exact ⟨a.1, a.2, calls_of_answered hanswered, rfl, fun s hs =>
    List.mem_dedup.2 (List.mem_map_of_mem hs)⟩

/-- The request is at its first reading; the insertion then takes the account's lock, applies its
event and gives the lock back. -/
theorem reported_of_run_deposits :
    let p := playService (Env.plain "node" 1000) (UnlockedReads (Env.plain "node" 1000))
      fundedNode deposits (List.replicate 25 0 ++ List.replicate 8 1 ++ List.replicate 6 0)
    ∃ r since, p.calls 0 = .finished (.response (.ok r, since)) ∧ r.balance = 25 ∧
      Reported (Env.plain "node" 1000) since r := by
  intro p
  have hbalances : balancesOf p 0 = some (25, 25, [10, 15, 25]) := by decide +kernel
  obtain ⟨r, since, hcall, hbalance, -⟩ := reports_of_balancesOf hbalances
  exact ⟨r, since, hcall, hbalance, (reported_of_run (reach_playService _) hcall).2⟩

/-- The insertion has not yet given the lock back when the balances are read. -/
theorem reported_zero_locked :
    let p := playService (Env.plain "node" 1000) (fun _ _ => True) fundedNode deposits
      (List.replicate 25 0 ++ List.replicate 7 1 ++ List.replicate 6 0)
    Pool.Reach (serviceScheduler (Env.plain "node" 1000)) (fun _ _ => True) (.start fundedNode) p ∧
      ∃ r since, p.calls 0 = .finished (.response (.ok r, since)) ∧
        ∀ s ∈ p.shared.visited, (s.account r.event.balanceKey).balance ≠ r.balance := by
  intro p
  have hbalances : balancesOf p 0 = some (0, 0, [10, 15, 25]) := by decide +kernel
  obtain ⟨r, since, hcall, hzero, hhad⟩ := reports_of_balancesOf hbalances
  refine ⟨reach_playService _, r, since, hcall, fun s hs heq => ?_⟩
  have hmem : (0 : Int64) ∈ [10, 15, 25] := hzero ▸ heq ▸ hhad s hs
  revert hmem
  decide

end Deposits

end Shardd
