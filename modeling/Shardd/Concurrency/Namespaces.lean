import Shardd.Concurrency.Operations
import Shardd.Recovery.Rebuild

/-!
# Namespaces of nonces

A network of nodes runs requests, deliveries, deletions, flushes, sweeps and restarts.  As long as
the requests are `Separate`, no two operations of clients yield events with the same key, in any
run;
every request is answered with an event of its own operation, and whatever is voided is voided
because of an event of its own operation.

The invariant: whatever a node keeps has been minted somewhere in the network, the cache files it
under its own key, and every minted event is yielded by an operation.
-/

namespace Shardd

variable {D : Type} {ν : Type}

/-! ## The invariant -/

/-- The event has been minted at some node. -/
def Minted (S : ν → SharedState D) (e : Event) : Prop := ∃ n, e ∈ (S n).minted

/-- What a node keeps of events. -/
def SharedState.Keeps (s : SharedState D) (e : Event) : Prop :=
  (∃ key, s.idempotencyCache key = some e) ∨ e ∈ s.storage.events ∨ e ∈ s.batchQueue ∨
    ∃ key, s.eventBuffer key = some e

structure Namespaced (env : ν → Env D) (R : LocalCreateInput → Prop) (S : ν → SharedState D) :
    Prop where
  cached : ∀ {n key e}, (S n).idempotencyCache key = some e → e.idempotencyKey = key
  kept : ∀ {n e}, (S n).Keeps e → Minted S e
  drawn : ∀ {n e}, e ∈ (S n).minted → ∃ k < (S n).idsDrawn, e.eventId = (env n).freshId k
  ids : ∀ {e e'}, Minted S e → Minted S e' → e.eventId = e'.eventId → e = e'
  yields : ∀ {e}, Minted S e → ∃ op, Yields env R (Minted S) op e

/-- Event ids never repeat. -/
def FreshIds (env : ν → Env D) : Prop :=
  ∀ n n' k k', (env n).freshId k = (env n').freshId k' → n = n' ∧ k = k'

/-- What has been minted stays minted. -/
def namesContract (env : ν → Env D) (R : LocalCreateInput → Prop) :
    Contract (ν → SharedState D) (ν × Wait) where
  inv := Namespaced env R
  guar _ S S' := ∀ e, Minted S e → Minted S' e
  absent _ _ := True
  pause _ _ _ := True

section Steps

variable [DecidableEq ν] {env : ν → Env D} {R : LocalCreateInput → Prop} {S : ν → SharedState D}
  {n : ν} {s' : SharedState D}

omit [DecidableEq ν] in
lemma Namespaced.freshId (h : Namespaced env R S) {e : Event} (he : Minted S e) :
    ∃ n k, e.eventId = (env n).freshId k := by
  obtain ⟨n, he⟩ := he
  obtain ⟨k, -, hk⟩ := h.drawn he
  exact ⟨n, k, hk⟩

/-- Changing one node, without minting. -/
lemma minted_set (hminted : s'.minted = (S n).minted) (e : Event) :
    Minted ((Lens.component n).set s' S) e ↔ Minted S e := by
  have hnode : ∀ m, ((Lens.component n).set s' S m).minted = (S m).minted := by
    intro m
    by_cases hm : m = n
    · subst hm
      rw [Lens.component_set_self, hminted]
    · rw [Lens.component_set_of_ne hm]
  simp only [Minted, hnode]

lemma Namespaced.set (h : Namespaced env R S) (hminted : s'.minted = (S n).minted)
    (hdrawn : s'.idsDrawn = (S n).idsDrawn)
    (hcached : ∀ {key e}, s'.idempotencyCache key = some e →
      (S n).idempotencyCache key = some e ∨ e.idempotencyKey = key)
    (hkept : ∀ {e}, s'.Keeps e → (S n).Keeps e ∨ Minted S e) :
    Namespaced env R ((Lens.component n).set s' S) := by
  have hiff := minted_set (S := S) (n := n) hminted
  constructor
  · intro m key e he
    by_cases hm : m = n
    · subst hm
      rw [Lens.component_set_self] at he
      rcases hcached he with he | he
      · exact h.cached he
      · exact he
    · rw [Lens.component_set_of_ne hm] at he
      exact h.cached he
  · intro m e he
    rw [hiff]
    by_cases hm : m = n
    · subst hm
      rw [Lens.component_set_self] at he
      rcases hkept he with he | he
      · exact h.kept he
      · exact he
    · rw [Lens.component_set_of_ne hm] at he
      exact h.kept he
  · intro m e he
    by_cases hm : m = n
    · subst hm
      rw [Lens.component_set_self] at he ⊢
      rw [hdrawn]
      exact h.drawn (hminted ▸ he)
    · rw [Lens.component_set_of_ne hm] at he ⊢
      exact h.drawn he
  · intro e e' he he'
    exact h.ids ((hiff e).1 he) ((hiff e').1 he')
  · intro e he
    obtain ⟨op, hop⟩ := h.yields ((hiff e).1 he)
    exact ⟨op, hop.mono fun x hx => (hiff x).2 hx⟩

/-- Minting one event at one node. -/
lemma Namespaced.mint {op : IdemKey} {e : Event} (h : Namespaced env R S) (hfresh : FreshIds env)
    (hminted : s'.minted = (S n).minted ++ [e]) (hdrawn : s'.idsDrawn = (S n).idsDrawn + 1)
    (hid : e.eventId = (env n).freshId (S n).idsDrawn) (hop : Yields env R (Minted S) op e)
    (hcached : ∀ {key x}, s'.idempotencyCache key = some x →
      (S n).idempotencyCache key = some x ∨ x.idempotencyKey = key)
    (hkept : ∀ {x}, s'.Keeps x → (S n).Keeps x ∨ x = e) :
    Namespaced env R ((Lens.component n).set s' S) ∧
      (∀ x, Minted S x → Minted ((Lens.component n).set s' S) x) ∧
      Minted ((Lens.component n).set s' S) e := by
  have hiff : ∀ x, Minted ((Lens.component n).set s' S) x ↔ Minted S x ∨ x = e := by
    intro x
    constructor
    · rintro ⟨m, hm⟩
      by_cases hne : m = n
      · subst hne
        rw [Lens.component_set_self, hminted, List.mem_append, List.mem_singleton] at hm
        exact hm.imp (fun hm => ⟨m, hm⟩) id
      · rw [Lens.component_set_of_ne hne] at hm
        exact .inl ⟨m, hm⟩
    · intro hx
      have hself : x ∈ (S n).minted ∨ x = e → Minted ((Lens.component n).set s' S) x := by
        intro hx
        refine ⟨n, ?_⟩
        rw [Lens.component_set_self, hminted, List.mem_append, List.mem_singleton]
        exact hx
      rcases hx with ⟨m, hm⟩ | rfl
      · by_cases hne : m = n
        · subst hne
          exact hself (.inl hm)
        · refine ⟨m, ?_⟩
          rw [Lens.component_set_of_ne hne]
          exact hm
      · exact hself (.inr rfl)
  -- the id of the new event is none that has been drawn before
  have hnew : ∀ x, Minted S x → x.eventId ≠ e.eventId := by
    rintro x ⟨m, hm⟩ heq
    obtain ⟨k, hk, hxid⟩ := h.drawn hm
    obtain ⟨rfl, rfl⟩ := hfresh _ _ _ _ (hxid.symm.trans (heq.trans hid))
    exact Nat.lt_irrefl _ hk
  refine ⟨?_, fun x hx => (hiff x).2 (.inl hx), (hiff e).2 (.inr rfl)⟩
  constructor
  · intro m key x hx
    by_cases hm : m = n
    · subst hm
      rw [Lens.component_set_self] at hx
      rcases hcached hx with hx | hx
      · exact h.cached hx
      · exact hx
    · rw [Lens.component_set_of_ne hm] at hx
      exact h.cached hx
  · intro m x hx
    rw [hiff]
    by_cases hm : m = n
    · subst hm
      rw [Lens.component_set_self] at hx
      exact (hkept hx).imp h.kept id
    · rw [Lens.component_set_of_ne hm] at hx
      exact .inl (h.kept hx)
  · intro m x hx
    by_cases hm : m = n
    · subst hm
      rw [Lens.component_set_self] at hx ⊢
      rw [hminted, List.mem_append, List.mem_singleton] at hx
      rw [hdrawn]
      rcases hx with hx | rfl
      · obtain ⟨k, hk, hxid⟩ := h.drawn hx
        exact ⟨k, Nat.lt_succ_of_lt hk, hxid⟩
      · exact ⟨_, Nat.lt_succ_self _, hid⟩
    · rw [Lens.component_set_of_ne hm] at hx ⊢
      exact h.drawn hx
  · intro x x' hx hx' heq
    rcases (hiff x).1 hx with hx | rfl <;> rcases (hiff x').1 hx' with hx' | rfl
    · exact h.ids hx hx' heq
    · exact absurd heq (hnew x hx)
    · exact absurd heq.symm (hnew x' hx')
    · rfl
  · intro x hx
    have hmono : ∀ y, Minted S y → Minted ((Lens.component n).set s' S) y :=
      fun y hy => (hiff y).2 (.inl hy)
    rcases (hiff x).1 hx with hx | rfl
    · obtain ⟨op, hop⟩ := h.yields hx
      exact ⟨op, hop.mono hmono⟩
    · exact ⟨op, hop.mono hmono⟩

end Steps

/-! ## The judgement -/

/-- The contract has been kept so far, and `es` have been minted. -/
structure NamesAt (env : ν → Env D) (R : LocalCreateInput → Prop) (es : List Event)
    (S₀ S : ν → SharedState D) : Prop where
  inv : Namespaced env R S
  guar : ∀ e, Minted S₀ e → Minted S e
  known : ∀ e ∈ es, Minted S e

namespace NamesAt

variable [DecidableEq ν] {env : ν → Env D} {R : LocalCreateInput → Prop} {es es' : List Event}
  {S₀ S : ν → SharedState D} {n : ν} {s' : SharedState D}

omit [DecidableEq ν] in
lemma mono (h : NamesAt env R es S₀ S) (hsub : ∀ e ∈ es', e ∈ es) : NamesAt env R es' S₀ S :=
  ⟨h.inv, h.guar, fun e he => h.known e (hsub e he)⟩

omit [DecidableEq ν] in
lemma learn (h : NamesAt env R es S₀ S) (hes : ∀ e ∈ es', Minted S e) : NamesAt env R es' S₀ S :=
  ⟨h.inv, h.guar, hes⟩

lemma rests {i : ℕ} {l : ν × Wait} (h : NamesAt env R es S₀ S) :
    (namesContract env R).Rests (netScheduler env R).ready (netScheduler env R).enter
      (fun _ _ => True) i l (NamesAt env R es) S₀ S := by
  refine ⟨h.inv, h.guar, fun S => ∀ e ∈ es, Minted S e, ?_, h.known, fun _ _ _ => trivial, ?_⟩
  · intro j S S' _ hes hguar e he
    exact hguar e (hes e he)
  · intro S' hinv hes _ _
    exact ⟨⟨hinv.cached, hinv.kept, hinv.drawn, hinv.ids, hinv.yields⟩, fun _ he => he, hes⟩

lemma set (h : NamesAt env R es S₀ S) (hminted : s'.minted = (S n).minted)
    (hdrawn : s'.idsDrawn = (S n).idsDrawn)
    (hcached : ∀ {key e}, s'.idempotencyCache key = some e →
      (S n).idempotencyCache key = some e ∨ e.idempotencyKey = key)
    (hkept : ∀ {e}, s'.Keeps e → (S n).Keeps e ∨ e ∈ es) :
    NamesAt env R es S₀ ((Lens.component n).set s' S) where
  inv := h.inv.set hminted hdrawn hcached fun he => (hkept he).imp id (h.known _)
  guar e he := (minted_set hminted e).2 (h.guar e he)
  known e he := (minted_set hminted e).2 (h.known e he)

lemma quiet (h : NamesAt env R es S₀ S) (hq : (S n).Quiet es' s') (hsub : ∀ e ∈ es', e ∈ es) :
    NamesAt env R es S₀ ((Lens.component n).set s' S) := by
  refine h.set hq.minted hq.idsDrawn (fun he => .inl ?_) fun {e} he => ?_
  · rw [← hq.idempotencyCache]
    exact he
  · rcases he with ⟨key, he⟩ | he | he | ⟨key, he⟩
    · rw [hq.idempotencyCache] at he
      exact .inl (.inl ⟨key, he⟩)
    · rw [hq.events] at he
      exact .inl (.inr (.inl he))
    · exact (hq.queue e he).imp (fun he => .inr (.inr (.inl he))) (hsub e)
    · exact (hq.buffer key e he).imp (fun he => .inr (.inr (.inr ⟨key, he⟩))) (hsub e)

lemma wrote (h : NamesAt env R es S₀ S) (hw : (S n).Wrote es s') :
    NamesAt env R es S₀ ((Lens.component n).set s' S) := by
  refine h.set hw.minted hw.idsDrawn (fun he => .inl ?_) fun {e} he => ?_
  · rw [← hw.idempotencyCache]
    exact he
  · rcases he with ⟨key, he⟩ | he | he | ⟨key, he⟩
    · rw [hw.idempotencyCache] at he
      exact .inl (.inl ⟨key, he⟩)
    · exact (hw.events e he).imp (fun he => .inr (.inl he)) id
    · rw [hw.queue] at he
      exact .inl (.inr (.inr (.inl he)))
    · exact .inl (.inr (.inr (.inr ⟨key, hw.buffer key e he⟩)))

/-- Nothing but accounts, locks and tombstones has changed, or less is kept. -/
lemma shrink (h : NamesAt env R es S₀ S) (hminted : s'.minted = (S n).minted)
    (hdrawn : s'.idsDrawn = (S n).idsDrawn)
    (hcached : ∀ {key e}, s'.idempotencyCache key = some e → (S n).idempotencyCache key = some e)
    (hstored : ∀ {e}, e ∈ s'.storage.events → e ∈ (S n).storage.events)
    (hqueued : ∀ {e}, e ∈ s'.batchQueue → e ∈ (S n).batchQueue)
    (hbuffered : ∀ {key e}, s'.eventBuffer key = some e → (S n).eventBuffer key = some e) :
    NamesAt env R es S₀ ((Lens.component n).set s' S) := by
  refine h.set hminted hdrawn (fun he => .inl (hcached he)) fun {e} he => .inl ?_
  exact he.imp (fun ⟨key, he⟩ => ⟨key, hcached he⟩)
    (.imp hstored (.imp hqueued fun ⟨key, he⟩ => ⟨key, hbuffered he⟩))

/-- An act that touches no place where events are kept. -/
lemma frame (h : NamesAt env R es S₀ S) (n : ν) (s' : SharedState D)
    (hminted : s'.minted = (S n).minted) (hdrawn : s'.idsDrawn = (S n).idsDrawn)
    (hcache : s'.idempotencyCache = (S n).idempotencyCache)
    (hstorage : s'.storage = (S n).storage) (hqueue : s'.batchQueue = (S n).batchQueue)
    (hbuffer : s'.eventBuffer = (S n).eventBuffer) :
    NamesAt env R es S₀ ((Lens.component n).set s' S) :=
  h.shrink hminted hdrawn (fun he => hcache ▸ he) (fun he => hstorage ▸ he)
    (fun he => hqueue ▸ he) fun he => hbuffer ▸ he

lemma cascade (h : NamesAt env R es S₀ S) (target : String) :
    NamesAt env R es S₀ ((Lens.component n).set
      ((S n).callStorage (env n) fun st => ((), st.deleteBucketCascade target)).2 S) := by
  unfold SharedState.callStorage
  split <;>
    refine h.shrink rfl rfl (fun h => h) (fun he => ?_) (fun h => h) fun h => h
  · exact (List.mem_filter.1 he).1
  · exact he
  · exact (List.mem_filter.1 he).1

lemma strip (h : NamesAt env R es S₀ S) (target : String) :
    NamesAt env R es S₀ ((Lens.component n).set ((S n).stripBucket target) S) := by
  refine h.shrink rfl rfl (fun he => ?_) (fun h => h) (fun h => h) fun he => ?_
  · exact (Map.of_retain ((S n).idempotencyCache_stripBucket target ▸ he)).1
  · exact (Map.of_retain ((S n).eventBuffer_stripBucket target ▸ he)).1

/-- The cache learns of a minted event. -/
lemma cache {key : IdemKey} {e : Event} (h : NamesAt env R es S₀ S) (he : e ∈ es)
    (hkey : e.idempotencyKey = key) :
    NamesAt env R es S₀ ((Lens.component n).set ((S n).remember key e) S) := by
  refine h.set rfl rfl (fun {k x} hx => ?_) fun {x} hx => ?_
  · rcases Map.of_insert hx with hx | ⟨rfl, rfl⟩
    · exact .inl hx
    · exact .inr hkey
  · rcases hx with ⟨k, hx⟩ | hx
    · rcases Map.of_insert hx with hx | ⟨-, rfl⟩
      · exact .inl (.inl ⟨k, hx⟩)
      · exact .inr he
    · exact .inl (.inr hx)

/-- An event is minted. -/
lemma mint {op : IdemKey} {e : Event} (h : NamesAt env R es S₀ S) (hfresh : FreshIds env)
    (hminted : s'.minted = (S n).minted ++ [e]) (hdrawn : s'.idsDrawn = (S n).idsDrawn + 1)
    (hid : e.eventId = (env n).freshId (S n).idsDrawn) (hop : Yields env R (Minted S) op e)
    (hcached : ∀ {key x}, s'.idempotencyCache key = some x →
      (S n).idempotencyCache key = some x ∨ x.idempotencyKey = key)
    (hkept : ∀ {x}, s'.Keeps x → (S n).Keeps x ∨ x = e) :
    NamesAt env R (es ++ [e]) S₀ ((Lens.component n).set s' S) := by
  obtain ⟨hinv, hmono, he⟩ := h.inv.mint hfresh hminted hdrawn hid hop hcached hkept
  refine ⟨hinv, fun x hx => hmono x (h.guar x hx), fun x hx => ?_⟩
  rcases List.mem_append.1 hx with hx | hx
  · exact hmono x (h.known x hx)
  · rw [List.mem_singleton.1 hx]
    exact he

end NamesAt

/-! ## Requests -/

/-- The events a request knows of at a stage. -/
def CreateStage.known : CreateStage → List Event
  | .asked rows => rows
  | .found e => [e]
  | .working _ es => es
  | .done (.ok r) => [r.primaryEvent]
  | _ => []

/-- What a request has found has its key. -/
def CreateStage.Right (input : LocalCreateInput) : CreateStage → Prop
  | .asked rows => ∀ e ∈ rows, e.idempotencyKey = input.idempotencyKey
  | .found e => e.idempotencyKey = input.idempotencyKey
  | .done (.ok r) => r.primaryEvent.idempotencyKey = input.idempotencyKey
  | _ => True

section Rules

variable [DecidableEq ν] {env : ν → Env D} {R : LocalCreateInput → Prop}

lemma CreateStage.mem_known {st : CreateStage} {e : Event} (h : e ∈ st.events) : e ∈ st.known := by
  cases st with
  | working credit es => exact h
  | _ => cases h

/-- An event that is built and applied at once. -/
lemma NamesAt.mintLocal {es : List Event} {S₀ S : ν → SharedState D} {n : ν} {op : IdemKey}
    {e : Event} (h : NamesAt env R es S₀ S) (hfresh : FreshIds env)
    (hid : e.eventId = (env n).freshId (S n).idsDrawn) (hop : Yields env R (Minted S) op e) :
    NamesAt env R (es ++ [e]) S₀ ((Lens.component n).set (((S n).built e).applyLocal e) S) := by
  refine h.mint hfresh rfl rfl hid hop (fun {key x} hx => ?_) fun {x} hx => ?_
  · rcases Map.of_insert hx with hx | ⟨rfl, rfl⟩
    · exact .inl hx
    · exact .inr rfl
  · rcases hx with ⟨key, hx⟩ | hx
    · rcases Map.of_insert hx with hx | ⟨-, rfl⟩
      · exact .inl (.inl ⟨key, hx⟩)
      · exact .inr rfl
    · exact .inl (.inr hx)

theorem namesCreateRules (hfresh : FreshIds env) (n : ν) (i : ℕ) {input : LocalCreateInput}
    (hinput : R input) :
    CreateRules (netScheduler env R).ready (netScheduler env R).enter (namesContract env R)
      (fun _ _ => True) i (Lens.component n) (Prod.mk n) (env n) input
      fun _ st S₀ S => NamesAt env R st.known S₀ S ∧ st.Right input where
  rest _ hs := hs.1.rests.mono fun _ _ h => ⟨h, hs.2⟩
  noted hs hnoted := ⟨hs.1.quiet hnoted.toQuiet fun _ he => CreateStage.mem_known he, hs.2⟩
  refuse _ hs := ⟨hs.1, trivial⟩
  lock {S₀ S} hs := by
    have hensured := hs.1.frame n ((S n).ensureAccount input.balanceKey) rfl rfl rfl rfl rfl rfl
    refine hensured.rests.mono fun S₀ S h => ⟨?_, trivial⟩
    exact h.frame n _ rfl rfl rfl rfl rfl rfl
  hit {e S₀ S} hs he := by
    refine ⟨hs.1.learn fun x hx => ?_, hs.1.inv.cached he⟩
    rw [List.mem_singleton.1 hx]
    exact hs.1.inv.kept (.inl ⟨_, he⟩)
  miss hs _ := ⟨hs.1, trivial⟩
  ask {S₀ S} hs := by
    refine ⟨hs.1.learn fun x hx => hs.1.inv.kept (.inr (.inl (List.mem_filter.1 hx).1)), ?_⟩
    intro x hx
    exact of_decide_eq_true (List.mem_filter.1 hx).2
  reload {rows e S₀ S} hs hwinner := by
    have he := mem_of_canonicalWinner hwinner
    refine ⟨NamesAt.cache (hs.1.mono fun x hx => ?_) List.mem_cons_self (hs.2 e he), hs.2 e he⟩
    rw [List.mem_singleton.1 hx]
    exact he
  unknown hs _ := ⟨hs.1.mono fun x hx => absurd hx List.not_mem_nil, trivial⟩
  unanswered hs := ⟨hs.1, trivial⟩
  allocate {ids credit es S₀ S} hs := by
    refine Proc.wp_mono (fun r S₀ S hs => ?_) (Proc.wp_zoom_of_only (J := NamesAt env R es)
      (fun _ _ _ hs hq => hs.quiet hq fun x hx => absurd hx List.not_mem_nil)
      (fun _ _ _ _ hs => hs.rests) (only_allocate (env n) input.bucket) hs.1)
    cases r with
    | ok id => exact ⟨hs, trivial⟩
    | error _ => exact ⟨hs, trivial⟩
  mint {id credit es S₀ S checkedAt mode} now d hs hmode hd _ _ hhold :=
    ⟨hs.1.mintLocal hfresh rfl (.request _ id now hinput hmode ⟨hd, hhold⟩), trivial⟩
  settle {id id' S₀ S checkedAt reservationId} now hs hmode := by
    intro charge release
    have hop : ∀ M : Event → Prop, Yields env R M input.idempotencyKey charge := fun M =>
      .request _ id now hinput hmode
        ⟨.inl rfl, fun heq => absurd heq.symm (CreateRules.reserve_ne _)⟩
    have hop' : ∀ M : Event → Prop, Yields env R M input.idempotencyKey release := fun M =>
      .request _ id' now hinput hmode
        ⟨.inr rfl,
          fun heq => absurd (derived_inj derived_release derived_reserve heq).1 (by decide)⟩
    have hcharge := hs.1.mintLocal (n := n) hfresh rfl (hop _)
    have hboth := hcharge.mintLocal (n := n) (e := release) hfresh
      (by rw [Lens.component_set_self]; rfl) (hop' _)
    rw [Lens.component_set_self, Lens.set_set] at hboth
    exact ⟨hboth, trivial⟩
  lockCredit {es S₀ S toAddr} hs _ := by
    have hensured := hs.1.frame n ((S n).ensureAccount (input.bucket, toAddr)) rfl rfl rfl rfl rfl
      rfl
    refine hensured.rests.mono fun S₀ S h => ⟨?_, trivial⟩
    exact h.frame n _ rfl rfl rfl rfl rfl rfl
  unlockCredit hs :=
    ⟨hs.1.frame n _ rfl rfl rfl rfl rfl rfl, trivial⟩
  unlock {st r S₀ S} hs hends := by
    have hunlocked := hs.1.frame n ((S n).unlockAccount input.balanceKey) rfl rfl rfl rfl rfl rfl
    cases r with
    | error err => exact ⟨hunlocked.mono fun e he => absurd he List.not_mem_nil, trivial⟩
    | ok r =>
        cases st with
        | found e =>
            obtain rfl : r = _ := hends
            exact ⟨hunlocked, hs.2⟩
        | working credit es =>
            cases credit with
            | some key => cases hends
            | none =>
                obtain ⟨-, hmem, hkey⟩ := hends
                refine ⟨hunlocked.mono fun e he => ?_, hkey⟩
                rw [List.mem_singleton.1 he]
                exact hmem
        | _ => cases hends

/-! ## Insertions -/

/-- The events an insertion of `e` knows of. -/
def InsertStage.known (e : Event) : InsertStage → List Event
  | .receiving => [e]
  | .correcting winner loser es => e :: winner :: loser :: es

/-- A conflict is between events of one key. -/
def InsertStage.Right : InsertStage → Prop
  | .receiving => True
  | .correcting winner loser _ => winner.idempotencyKey = loser.idempotencyKey

lemma InsertStage.mem_known {e x : Event} {st : InsertStage} (h : x ∈ st.events e) :
    x ∈ st.known e := by
  cases st with
  | receiving => exact h
  | correcting winner loser es =>
      rcases List.mem_cons.1 h with rfl | h
      · exact List.mem_cons_self
      · exact List.mem_cons_of_mem _ (List.mem_cons_of_mem _ (List.mem_cons_of_mem _ h))

theorem namesInsertRules (hsep : Separate env R) (hfresh : FreshIds env) (n : ν) (i : ℕ)
    (e : Event) :
    InsertRules (netScheduler env R).ready (netScheduler env R).enter (namesContract env R)
      (fun _ _ => True) i (Lens.component n) (Prod.mk n) (env n) e
      fun st S₀ S => NamesAt env R (st.known e) S₀ S ∧ st.Right where
  rest _ hs := hs.1.rests.mono fun _ _ h => ⟨h, hs.2⟩
  noted hs hnoted := ⟨hs.1.quiet hnoted.toQuiet fun _ he => InsertStage.mem_known he, hs.2⟩
  quiet hs hq := ⟨hs.1.quiet hq fun _ he => absurd he List.not_mem_nil, hs.2⟩
  tombstone hs _ :=
    ⟨hs.1.frame n _ rfl rfl rfl rfl rfl rfl, hs.2⟩
  cascade {S₀ S target} hs _ := ⟨hs.1.cascade target, hs.2⟩
  strip {S₀ S target} hs _ := ⟨hs.1.strip target, hs.2⟩
  account {st S₀ S} key f hs _ := by
    have hensured := hs.1.frame n ((S n).ensureAccount key) rfl rfl rfl rfl rfl rfl
    refine hensured.rests.mono fun S₀ S h => ⟨?_, hs.2⟩
    exact h.frame n _ rfl rfl rfl rfl rfl rfl
  cache hs _ := ⟨hs.1.cache List.mem_cons_self rfl, trivial⟩
  conflict {existing S₀ S} hs hconflict := by
    have hcached : (S n).idempotencyCache e.idempotencyKey = some existing :=
      (Option.filter_eq_some_iff.1 hconflict).1
    have hkey := hs.1.inv.cached hcached
    have hmem : Minted S existing := hs.1.inv.kept (.inl ⟨_, hcached⟩)
    have he : Minted S e := hs.1.known e List.mem_cons_self
    have hknown : ∀ {winner loser : Event}, Minted S winner → Minted S loser →
        winner.idempotencyKey = e.idempotencyKey →
        NamesAt env R ((InsertStage.correcting winner loser []).known e) S₀
          ((Lens.component n).set ((S n).remember e.idempotencyKey winner) S) := by
      intro winner loser hwinner hloser hkey
      refine NamesAt.cache (hs.1.learn fun x hx => ?_)
        (List.mem_cons_of_mem _ List.mem_cons_self) hkey
      rcases List.mem_cons.1 hx with rfl | hx
      · exact he
      · rcases List.mem_pair.1 hx with rfl | rfl
        · exact hwinner
        · exact hloser
    rcases idempotencyWinner_cases existing e with heq | heq
    · rw [heq]
      exact ⟨hknown hmem he hkey, hkey⟩
    · rw [heq]
      exact ⟨hknown he hmem rfl, hkey.symm⟩
  correct {winner loser es S₀ S} id now d hs hd := by
    have hwinner := hs.1.known winner (List.mem_cons_of_mem _ List.mem_cons_self)
    have hloser := hs.1.known loser
      (List.mem_cons_of_mem _ (List.mem_cons_of_mem _ List.mem_cons_self))
    -- the two events of the conflict are of one operation
    obtain ⟨op, hop⟩ := hs.1.inv.yields hwinner
    obtain ⟨op', hop'⟩ := hs.1.inv.yields hloser
    have heq : op = op' := hop.unique hsep (fun x hx => hs.1.inv.freshId hx)
      (fun x x' hx hx' => hs.1.inv.ids hx hx') hop' hs.2
    subst heq
    refine ⟨?_, hs.2⟩
    exact hs.1.mint hfresh rfl rfl rfl (.correction _ id now hwinner hloser hop hop' hs.2 hd)
      (fun hx => .inl hx) fun hx => .inl hx
  cacheCorrection {winner loser es S₀ S x} hs hx := by
    refine ⟨hs.1.cache ?_ rfl, hs.2⟩
    exact List.mem_cons_of_mem _ (List.mem_cons_of_mem _ (List.mem_cons_of_mem _ hx))

/-! ## Deletions -/

theorem namesDeleteRules (hfresh : FreshIds env) (n : ν) (i : ℕ) (target : String)
    (reason : Option String) :
    DeleteRules (netScheduler env R).ready (netScheduler env R).enter (namesContract env R)
      (fun _ _ => True) i (Lens.component n) (Prod.mk n) (env n) target reason
      fun st S₀ S => NamesAt env R st.events S₀ S where
  rest _ hs := hs.rests
  noted hs hnoted := hs.quiet hnoted.toQuiet fun _ he => he
  quiet hs hq := hs.quiet hq fun _ he => absurd he List.not_mem_nil
  refuse _ hs := hs
  mint id now hs _ :=
    hs.mint hfresh rfl rfl rfl (.deletion target reason _ id now) (fun hx => .inl hx)
      fun hx => .inl hx
  cascade hs := hs.cascade target
  strip hs := hs.strip target
  finish hs := hs.mono fun _ he => absurd he List.not_mem_nil

/-! ## Restarts -/

section Restart

variable {n : ν} {i : ℕ} {S₀ S : ν → SharedState D}

/-- A query of the start-up, and what is rebuilt from its answer. -/
lemma wp_startUpQuery {α : Type} {query : Storage D → α} {rebuild : α → NodeM D Unit}
    (known : α → List Event) (hknown : ∀ st, ∀ e ∈ known (query st), e ∈ st.events)
    (hrebuild : ∀ a S₀ S, NamesAt env R (known a) S₀ S →
      (atNode n (rebuild a)).wp (netScheduler env R).ready (netScheduler env R).enter
        (namesContract env R) (fun _ _ => True) i (fun _ => NamesAt env R []) S₀ S)
    (hs : NamesAt env R [] S₀ S) :
    (atNode n (startUpQuery (env n) query rebuild)).wp (netScheduler env R).ready
      (netScheduler env R).enter (namesContract env R) (fun _ _ => True) i
      (fun _ => NamesAt env R []) S₀ S := by
  unfold startUpQuery storageCall
  apply Proc.wp_zoom_bind
  rw [ExceptT.run_mk]
  apply Proc.wp_zoom_bind
  apply Proc.wp_zoom_suspend
  refine hs.rests.mono fun S₀ S hs => ?_
  apply Proc.wp_zoom_bind
  rw [Proc.wp_zoom_readUpdate]
  have hcalled : NamesAt env R [] S₀ ((Lens.component n).set
      (((Lens.component n).get S).callStorage (env n) fun st => (query st, st)).2 S) :=
    hs.quiet (quiet_callStorage (env n) (fun _ => rfl) (S n)) fun _ he => he
  have hanswered : ∀ a, (((Lens.component n).get S).callStorage (env n)
      fun st => (query st, st)).1 = .ok a → ∀ e ∈ known a, Minted S e := by
    intro a ha e he
    rw [SharedState.of_callStorage_ok (env n) ha] at he
    exact hs.inv.kept (.inr (.inl (hknown _ e he)))
  rcases hanswer : (((Lens.component n).get S).callStorage (env n)
    fun st => (query st, st)).1 with err | a
  · apply Proc.wp_zoom_bind
    apply Proc.wp_zoom_suspend
    exact hcalled.rests
  · apply Proc.wp_zoom_bind
    apply Proc.wp_zoom_suspend
    have hknows : NamesAt env R (known a) S₀ _ := hcalled.learn fun e he =>
      (minted_set (quiet_callStorage (env n) (fun _ => rfl) (S n)).minted e).2
        (hanswered a hanswer e he)
    exact hknows.rests.mono fun S₀ S hs => hrebuild a S₀ S hs

/-- The per-event caches are rebuilt from events that have been minted. -/
lemma wp_rebuildFromEvents {now : ℕ} {events : List Event} (hs : NamesAt env R events S₀ S) :
    (atNode n (rebuildFromEvents (env n) now events)).wp (netScheduler env R).ready
      (netScheduler env R).enter (namesContract env R) (fun _ _ => True) i
      (fun _ => NamesAt env R []) S₀ S := by
  unfold rebuildFromEvents
  apply Proc.wp_zoom_bind
  rw [Proc.wp_zoom_update]
  have haccounts : NamesAt env R events S₀ ((Lens.component n).set
      (events.foldl (fun s e => s.rebuildAccount now e) (S n)) S) := by
    have hframe := SharedState.foldl_rebuildAccount_frame now events (S n)
    dsimp only at hframe
    refine hs.shrink ?_ ?_ (fun h => ?_) (fun h => ?_) (fun h => ?_) fun h => ?_
    · rw [hframe]
    · rw [hframe]
    · rw [hframe] at h
      exact h
    · rw [hframe] at h
      exact h
    · rw [hframe] at h
      exact h
    · rw [hframe] at h
      exact h
  apply Proc.wp_zoom_bind
  rw [Proc.wp_zoom_update]
  have hcached : ∀ {S}, NamesAt env R events S₀ S → NamesAt env R events S₀
      ((Lens.component n).set ((S n).rebuildIdempotencyCache events) S) := by
    intro S hs
    refine hs.set rfl rfl (fun hx => ?_) fun hx => ?_
    · exact (SharedState.of_rebuildIdempotencyCache hx).imp id And.right
    · rcases hx with ⟨key, hx⟩ | hx
      · exact (SharedState.of_rebuildIdempotencyCache hx).imp (fun hx => .inl ⟨key, hx⟩) And.left
      · exact .inl (.inr hx)
  apply Proc.wp_zoom_bind
  rw [Proc.wp_zoom_readUpdate]
  have hdigested : ∀ {S}, NamesAt env R events S₀ S → NamesAt env R events S₀
      ((Lens.component n).set ((events.insertionSort byOriginKey).foldl
        (SharedState.rebuildDigest (env n).hasher)
        ((fun _ => none : Map EpochKey (ℕ × D)), S n)).2 S) := by
    intro S hs
    have hframe := SharedState.foldl_rebuildDigest_frame (env n).hasher
      (events.insertionSort byOriginKey) ((fun _ => none : Map EpochKey (ℕ × D)), S n)
    dsimp only at hframe
    refine hs.set ?_ ?_ (fun hx => .inl ?_) fun hx => ?_
    · rw [hframe]
    · rw [hframe]
    · rw [hframe] at hx
      exact hx
    · rcases hx with ⟨key, hx⟩ | hx | hx | ⟨key, hx⟩
      · rw [hframe] at hx
        exact .inl (.inl ⟨key, hx⟩)
      · rw [hframe] at hx
        exact .inl (.inr (.inl hx))
      · rw [hframe] at hx
        exact .inl (.inr (.inr (.inl hx)))
      · rcases SharedState.of_eventBuffer_foldl_rebuildDigest _ hx with hx | ⟨hx, -⟩
        · exact .inl (.inr (.inr (.inr ⟨key, hx⟩)))
        · exact .inr ((List.mem_insertionSort _).1 hx)
  refine Proc.wp_mono (fun _ S₀ S hs => ?_) (Proc.wp_zoom_of_only (J := NamesAt env R events)
    (fun _ _ _ hs hn => hs.quiet hn.toQuiet fun _ he => absurd he List.not_mem_nil)
    (fun _ _ _ _ hs => hs.rests) (only_saveDigests (env n) _ _) (hdigested (hcached haccounts)))
  exact hs.mono fun _ he => absurd he List.not_mem_nil

/-- A crash and a start. -/
lemma wp_restartNode (hs : NamesAt env R [] S₀ S) :
    (atNode n (restartNode (env n))).wp (netScheduler env R).ready (netScheduler env R).enter
      (namesContract env R) (fun _ _ => True) i (fun _ => NamesAt env R []) S₀ S := by
  have hnone : ∀ e : Event, e ∈ ([] : List Event) → e ∈ ([] : List Event) := fun _ he => he
  have hcrashed : NamesAt env R [] S₀ ((Lens.component n).set (S n).crashed S) := by
    refine hs.shrink rfl rfl ?_ (fun h => h) ?_ ?_
    · rintro key e ⟨⟩
    · rintro e ⟨⟩
    · rintro key e ⟨⟩
  unfold restartNode newSharedState
  apply Proc.wp_zoom_bind
  rw [Proc.wp_zoom_update]
  apply Proc.wp_zoom_bind
  refine Proc.wp_mono (fun _ S₀ S hs => ?_) (Proc.wp_zoom_of_only (J := NamesAt env R [])
    (fun _ _ _ hs hq => hs.quiet hq hnone) (fun _ _ _ _ hs => hs.rests)
    (only_loadFromStorage (env n)) hcrashed)
  apply Proc.wp_zoom_bind
  refine Proc.wp_mono (fun _ S₀ S hs => ?_) (wp_startUpQuery (fun _ => [])
    (fun _ _ he => absurd he List.not_mem_nil) (fun balances S₀ S hs =>
      hs.frame n _ rfl rfl rfl rfl rfl rfl) hs)
  apply Proc.wp_zoom_bind
  refine Proc.wp_mono (fun _ S₀ S hs => ?_) (wp_startUpQuery (fun _ => [])
    (fun _ _ he => absurd he List.not_mem_nil) (fun stored S₀ S hs =>
      hs.frame n _ rfl rfl rfl rfl rfl rfl) hs)
  apply Proc.wp_zoom_bind
  refine Proc.wp_mono (fun _ S₀ S hs => ?_) (wp_startUpQuery (fun _ => [])
    (fun _ _ he => absurd he List.not_mem_nil) (fun events S₀ S hs =>
      hs.frame n _ rfl rfl rfl rfl rfl rfl) hs)
  apply Proc.wp_zoom_bind
  refine Proc.wp_mono (fun now S₀ S hs => ?_) (Proc.wp_zoom_of_only (J := NamesAt env R [])
    (fun _ _ _ hs hn => hs.quiet hn.toQuiet hnone) (fun _ _ _ _ hs => hs.rests)
    (W := fun _ => True) (only_nowMs (env n)) hs)
  apply Proc.wp_zoom_bind
  refine Proc.wp_mono (fun _ S₀ S hs => ?_) (wp_startUpQuery (fun events => events)
    (fun st e he => (List.mem_insertionSort _).1 he)
    (fun events S₀ S hs => wp_rebuildFromEvents hs) hs)
  exact wp_startUpQuery (fun _ => []) (fun _ _ he => absurd he List.not_mem_nil)
    (fun events S₀ S hs => hs.frame n _ rfl rfl rfl rfl rfl rfl) hs

end Restart

/-! ## Runs -/

/-- What is known of a finished call: its answer is an event of its own operation. -/
def AnswersOwn (R : LocalCreateInput → Prop) (a : NodeAnswer) (S : ν → SharedState D) : Prop :=
  match a with
  | .created input (.ok r) =>
      R input ∧ Minted S r.primaryEvent ∧ r.primaryEvent.idempotencyKey = input.idempotencyKey
  | _ => True

/-- The contract is kept from the first step of every call to its last. -/
lemma names_startsKept (hsep : Separate env R) (hfresh : FreshIds env) :
    Pool.StartsKept (netScheduler env R) (namesContract env R) (fun _ _ => True)
      fun _ => AnswersOwn R where
  absent i := .true _ i
  stable := by
    intro i a j S S' _ ha hguar
    unfold AnswersOwn at ha ⊢
    split
    · exact ⟨ha.1, hguar _ ha.2.1, ha.2.2⟩
    · trivial
  pause _ _ _ _ _ _ _ := trivial
  start := by
    rintro l t ⟨-, c, hc, rfl⟩ i S hinv - - -
    have hidle : NamesAt env R [] S ((netScheduler env R).enter i S) :=
      ⟨⟨hinv.cached, hinv.kept, hinv.drawn, hinv.ids, hinv.yields⟩, fun _ he => he,
        fun e he => absurd he List.not_mem_nil⟩
    cases c with
    | call n c =>
        cases c with
        | insert e => exact absurd hc id
        | create input =>
            apply Proc.wp_zoom_bind
            refine Proc.wp_mono (fun r S₀ S hs => ?_)
              ((namesCreateRules hfresh n i hc).wp_createLocalEvents ⟨hidle, trivial⟩)
            cases r with
            | error err => exact ⟨hs.1.inv, hs.1.guar, trivial⟩
            | ok r =>
                exact ⟨hs.1.inv, hs.1.guar, hc, hs.1.known _ List.mem_cons_self, hs.2⟩
        | delete target reason =>
            apply Proc.wp_zoom_bind
            refine Proc.wp_mono (fun r S₀ S hs => ?_)
              ((namesDeleteRules hfresh n i target reason).wp_createMetaBucketDelete hidle)
            exact ⟨hs.inv, hs.guar, trivial⟩
        | writeBatch first size =>
            apply Proc.wp_zoom_bind
            unfold writeBatch
            apply Proc.wp_zoom_bind
            rw [Proc.wp_zoom_read]
            refine Proc.wp_mono (fun _ S₀ S hs => ?_) (Proc.wp_zoom_of_only
              (fun _ _ _ hs hw => NamesAt.wrote hs hw) (fun _ _ _ _ hs => hs.rests)
              (only_doFlush (env n) _) (hidle.learn fun e he => ?_))
            · exact ⟨hs.inv, hs.guar, trivial⟩
            · have hqueued := List.mem_of_mem_drop (List.mem_of_mem_take he)
              exact hidle.inv.kept (.inr (.inr (.inl hqueued)))
        | scan keys ageThresholdMs =>
            apply Proc.wp_zoom_bind
            unfold scanOrphans
            apply Proc.wp_zoom_bind
            refine Proc.wp_mono (fun now S₀ S hs => ?_) (Proc.wp_zoom_of_only
              (J := NamesAt env R []) (fun _ _ _ hs hn => hs.quiet hn.toQuiet fun _ he => he)
              (fun _ _ _ _ hs => hs.rests) (W := fun _ => True) (only_nowMs (env n)) hidle)
            apply Proc.wp_zoom_bind
            rw [Proc.wp_zoom_read]
            split
            · refine Proc.wp_mono (fun _ S₀ S hs => ?_) (Proc.wp_zoom_of_only
                (fun _ _ _ hs hw => NamesAt.wrote hs hw) (fun _ _ _ _ hs => hs.rests)
                (only_doFlush (env n) _) (hs.learn fun e he => ?_))
              · exact ⟨hs.inv, hs.guar, trivial⟩
              · obtain ⟨k, -, hk⟩ := List.mem_filterMap.1 he
                exact hs.inv.kept (.inr (.inr (.inr ⟨k, hk⟩)))
            · exact ⟨hs.inv, hs.guar, trivial⟩
        | sweep =>
            apply Proc.wp_zoom_bind
            unfold sweepExpiredHolds
            apply Proc.wp_zoom_bind
            refine Proc.wp_mono (fun now S₀ S hs => ?_) (Proc.wp_zoom_of_only
              (J := NamesAt env R []) (fun _ _ _ hs hn => hs.quiet hn.toQuiet fun _ he => he)
              (fun _ _ _ _ hs => hs.rests) (W := fun _ => True) (only_nowMs (env n)) hidle)
            rw [Proc.wp_zoom_update]
            have hswept := hs.frame n ((S n).sweepExpired now) rfl rfl rfl rfl rfl rfl
            exact ⟨hswept.inv, hswept.guar, trivial⟩
    | deliver sender receiver k =>
        apply Proc.wp_bind
        rw [Proc.wp_read]
        split
        · exact ⟨hidle.inv, hidle.guar, trivial⟩
        · rename_i e he
          have hminted : NamesAt env R [e] S ((netScheduler env R).enter i S) := by
            refine hidle.learn fun x hx => ?_
            rw [List.mem_singleton.1 hx]
            exact ⟨sender, List.mem_of_getElem? he⟩
          apply Proc.wp_zoom_bind
          refine Proc.wp_mono (fun r S₀ S hs => ?_)
            ((namesInsertRules hsep hfresh receiver i e).wp_insertEvent ⟨hminted, trivial⟩)
          obtain ⟨st, hs⟩ := hs
          exact ⟨hs.1.inv, hs.1.guar, trivial⟩
    | restart n =>
        apply Proc.wp_bind
        refine Proc.wp_mono (fun _ S₀ S hs => ?_) (wp_restartNode hidle)
        exact ⟨hs.inv, hs.guar, trivial⟩

end Rules

/-- **Namespaces of nonces.**  In every run of a network whose requests are separate, every minted
event is yielded by an operation, and events of different operations have different keys; a request
that succeeds is answered with an event of its own operation; and what is voided is voided because
of an event of its own operation. -/
theorem keys_of_operations [DecidableEq ν] {env : ν → Env D} {R : LocalCreateInput → Prop}
    (hfresh : FreshIds env) (hsep : Separate env R)
    {p : Pool (ν → SharedState D) (ν × Wait) NodeAnswer} (h : NetReach env R p) :
    (∀ e, Minted p.shared e → ∃ op, Yields env R (Minted p.shared) op e) ∧
    (∀ e e' op op', Yields env R (Minted p.shared) op e → Yields env R (Minted p.shared) op' e' →
      e.idempotencyKey = e'.idempotencyKey → op = op') ∧
    (∀ i input r, p.calls i = .finished (.created input (.ok r)) →
      Minted p.shared r.primaryEvent ∧ r.primaryEvent.idempotencyKey = input.idempotencyKey ∧
        Yields env R (Minted p.shared) input.idempotencyKey r.primaryEvent) ∧
    ∀ e, Minted p.shared e → e.type = .void → ∃ op winner loser,
      Minted p.shared winner ∧ Minted p.shared loser ∧ e.voidRef = some loser.eventId ∧
        winner.idempotencyKey = loser.idempotencyKey ∧
        Yields env R (Minted p.shared) op winner ∧ Yields env R (Minted p.shared) op loser := by
  have hstart : Namespaced env R fun _ => (.blank .empty : SharedState D) := by
    constructor
    · rintro n key e ⟨⟩
    · rintro n e (⟨key, ⟨⟩⟩ | ⟨⟨⟩⟩ | ⟨⟨⟩⟩ | ⟨key, ⟨⟩⟩)
    · rintro n e ⟨⟩
    · rintro e e' ⟨n, ⟨⟩⟩
    · rintro e ⟨n, ⟨⟩⟩
  have hsound := Pool.sound_of_reach (names_startsKept hsep hfresh) hstart (fun _ => trivial) h
  have hinv : Namespaced env R p.shared := hsound.inv
  have hids : ∀ e, Minted p.shared e → ∃ n k, e.eventId = (env n).freshId k :=
    fun e he => hinv.freshId he
  refine ⟨fun e he => hinv.yields he, fun e e' op op' hop hop' hkey => ?_, fun i input r hi => ?_,
    fun e he hvoid => ?_⟩
  · exact hop.unique hsep hids (fun _ _ hx hx' => hinv.ids hx hx') hop' hkey
  · obtain ⟨hinput, hminted, hkey⟩ := hsound.finished i _ hi
    obtain ⟨op, hop⟩ := hinv.yields hminted
    refine ⟨hminted, hkey, ?_⟩
    rw [← hop.eq_of_own hsep hids hinput hkey]
    exact hop
  · obtain ⟨op, hop⟩ := hinv.yields he
    cases hop with
    | deletion target reason eventId id now => cases hvoid
    | request eventId id now hinput hmode hd => exact absurd hvoid hd.1.type_ne_void
    | correction eventId id now hwinner hloser hyields hyields' hkey hd =>
        refine ⟨op, _, _, hwinner, hloser, ?_, hkey, hyields, hyields'⟩
        rcases hd with rfl | rfl <;> rfl

/-! ## Two runs -/

/-- Two nodes whose ids are marked with the node. -/
private def pairEnv (b : Bool) : Env Unit :=
  { Env.plain (if b then "b" else "a") 1000 with
    freshId := fun k => String.ofList ((if b then 'b' else 'a') :: List.replicate k 'x') }

private lemma freshIds_pairEnv : FreshIds pairEnv := by
  intro b b' k k' h
  have hlist := String.ofList_injective h
  obtain ⟨hmark, hrest⟩ := List.cons.inj hlist
  constructor
  · revert hmark
    cases b <;> cases b' <;> decide
  · simpa using congrArg List.length hrest

/-- A deposit, and a transfer of a part of it that is given a hold. -/
private def payments : List LocalCreateInput :=
  [.legacy "bucket" "alice" 10 none 0 "d1" false,
    { LocalCreateInput.legacy "bucket" "alice" (-1) none 0 "t1" false with
      transferTo := some "bob" }]

private lemma separate_payments : Separate pairEnv (· ∈ payments) := by
  constructor
  · decide
  · intro input hinput target reason hkey
    have hbucket : ∀ input ∈ payments, input.bucket ≠ metaBucket := by decide
    exact hbucket input hinput (congrArg (fun k => k.2.1) hkey)
  · rintro input hinput ⟨checkedAt, reservationId, hmode⟩
    have hnone : ∀ input ∈ payments, input.settleReservation = none := by decide
    have hsettle := (LocalCreateMode.wellFormed_of_fromInput hmode).1
    rw [hnone input hinput] at hsettle
    cases hsettle
  · intro input input' hinput hinput' hclash
    have hdistinct : ∀ input ∈ payments, ∀ input' ∈ payments,
        input.idempotencyNonce = input'.idempotencyNonce → input = input' := by decide
    exact hclash.distinct (congrArg _ (hdistinct input hinput input' hinput' hclash.nonce))

/-- The deposit and the transfer at one node, and the transfer's events at the other. -/
theorem keys_of_operations_payments :
    let p := playNetwork pairEnv (· ∈ payments)
      ((payments.map fun input => .call false (.create input)) ++
        [.deliver false true 0, .deliver false true 1])
      ([0, 1, 2, 3].flatMap fun i => List.replicate 20 i)
    (p.shared false).minted.length = 4 ∧
      ∀ e e' op op', Yields pairEnv (· ∈ payments) (Minted p.shared) op e →
        Yields pairEnv (· ∈ payments) (Minted p.shared) op' e' →
        e.idempotencyKey = e'.idempotencyKey → op = op' := by
  intro p
  have hlength : (p.shared false).minted.length = 4 := by decide +kernel
  have hreach : NetReach pairEnv (· ∈ payments) p := by
    apply reach_playNetwork
    intro c hc
    rcases List.mem_append.1 hc with hc | hc
    · obtain ⟨input, hinput, rfl⟩ := List.mem_map.1 hc
      exact hinput
    · rcases List.mem_pair.1 hc with rfl | rfl <;> trivial
  exact ⟨hlength, (keys_of_operations freshIds_pairEnv separate_payments hreach).2.1⟩

/-- A debit with a hold, and an operation whose nonce is what the node makes of the debit's. -/
private def lookalikes : List LocalCreateInput :=
  [.legacy "bucket" "alice" (-5) none 100 "x" false,
    .legacy "bucket" "alice" 0 none 0 "reserve:x" false]

/-- The second request is answered with the hold of the first, and mints nothing of its own. -/
theorem keys_of_operations_lookalikes :
    let env : Unit → Env Unit := fun _ => Env.plain "node" 1000
    let p := playNetwork env (· ∈ lookalikes) (lookalikes.map fun input => .call () (.create input))
      ([0, 1].flatMap fun i => List.replicate 20 i)
    NetReach env (· ∈ lookalikes) p ∧
      ∃ input r, p.calls 1 = .finished (.created input (.ok r)) ∧
        ∃ op, op ≠ input.idempotencyKey ∧
          Yields env (· ∈ lookalikes) (Minted p.shared) op r.primaryEvent := by
  intro env p
  let debit := LocalCreateInput.legacy "bucket" "alice" (-5) none 100 "x" false
  let input := LocalCreateInput.legacy "bucket" "alice" 0 none 0 "reserve:x" false
  let hold := (debit.holdDraft (25, 601000)).event "0" "node" (1, 1) 1000
  have hanswer : succeeded p 1 = some (input, { primaryEvent := hold, emittedEvents := [] }) := by
    decide +kernel
  refine ⟨reach_playNetwork fun c hc => ?_, input, _, calls_of_succeeded hanswer,
    debit.idempotencyKey, by decide, ?_⟩
  · obtain ⟨input, hinput, rfl⟩ := List.mem_map.1 hc
    exact hinput
  · exact .request (n := ()) (d := debit.holdDraft (25, 601000)) "0" (1, 1) 1000
      (by decide) (rfl : LocalCreateMode.fromInput debit 0 = .ok (.charge none))
      ⟨.inl ⟨(25, 601000), by decide, rfl⟩, fun _ => ⟨by decide, by decide⟩⟩

end Shardd
