import Mathlib.Data.ENat.Lattice
import Mathlib.Logic.Relation
import Mathlib.Tactic.Common

/-!
# Clients: programs that make calls

A `Client Op Ans α` computes by itself and now and then makes a call `op : Op`, which somebody else
answers with an `Ans op`.  Between a call and its answer other clients make theirs.  `Calls` is a
shared state with the clients that are under way, and `Calls.Step` what may happen next: a client
comes in, the call of one of them is served, one of them has ended, or the shared state changes by
itself.  Every step says which of these it is, so that a run can be restricted to steps that keep
to a rule.

`Client.cost` counts the calls that a client can still make, weighted by a price.
-/

namespace Shardd

universe u v w x

/-- A program that makes calls. -/
inductive Client (Op : Type u) (Ans : Op → Type v) (α : Type w) : Type (max u v w)
  | done (a : α)
  | call (op : Op) (next : Ans op → Client Op Ans α)

namespace Client

variable {Op : Type u} {Ans : Op → Type v} {α β ε : Type w}

def bind : Client Op Ans α → (α → Client Op Ans β) → Client Op Ans β
  | done a, k => k a
  | call op n, k => call op fun ans => (n ans).bind k

instance : Monad (Client Op Ans) where
  pure := done
  bind := bind

theorem call_bind (op : Op) (n : Ans op → Client Op Ans α) (k : α → Client Op Ans β) :
    call op n >>= k = call op fun ans => n ans >>= k := rfl

/-! ## What the calls of a client come to -/

section Cost

variable (price : Op → ℕ)

/-- The most that the calls of a client can come to. -/
noncomputable def cost : Client Op Ans α → ℕ∞
  | done _ => 0
  | call op n => price op + ⨆ ans, (n ans).cost

variable {price}

variable (price) in
theorem price_add_cost_le (op : Op) (n : Ans op → Client Op Ans α) (ans : Ans op) :
    price op + (n ans).cost price ≤ (call op n).cost price :=
  add_le_add le_rfl (le_iSup (fun ans => (n ans).cost price) ans)

theorem cost_call_le {op : Op} {n : Ans op → Client Op Ans α} {b : ℕ∞}
    (h : ∀ ans, (n ans).cost price ≤ b) : (call op n).cost price ≤ price op + b :=
  add_le_add le_rfl (iSup_le h)

/-- What a sequence comes to. -/
theorem cost_bind_le {t : Client Op Ans α} {k : α → Client Op Ans β} {b : ℕ∞}
    (h : ∀ a, (k a).cost price ≤ b) : (t >>= k).cost price ≤ t.cost price + b := by
  induction t with
  | done a => exact (h a).trans le_add_self
  | call op n ih =>
      rw [call_bind]
      refine (cost_call_le fun ans => (ih ans).trans
        (add_le_add (le_iSup (fun ans => (n ans).cost price) ans) le_rfl)).trans ?_
      rw [← add_assoc]
      rfl

/-- What a sequence comes to that an error ends. -/
theorem cost_bindExcept_le {t : ExceptT ε (Client Op Ans) α}
    {k : α → ExceptT ε (Client Op Ans) β} {b : ℕ∞} (h : ∀ a, (k a).run.cost price ≤ b) :
    (t >>= k).run.cost price ≤ t.run.cost price + b := by
  refine cost_bind_le fun r => ?_
  cases r with
  | ok a => exact h a
  | error err => exact zero_le

end Cost

/-! ## Answers that are given at once -/

/-- What the client comes to when its calls are answered by `f`. -/
def eval (f : (op : Op) → Ans op) : Client Op Ans α → α
  | done a => a
  | call op n => (n (f op)).eval f

theorem eval_bind (f : (op : Op) → Ans op) (t : Client Op Ans α) (k : α → Client Op Ans β) :
    (t >>= k).eval f = (k (t.eval f)).eval f := by
  induction t with
  | done a => rfl
  | call op n ih => exact ih (f op)

theorem eval_bindExcept {f : (op : Op) → Ans op} {t : ExceptT ε (Client Op Ans) α}
    {k : α → ExceptT ε (Client Op Ans) β} {a : α} (h : t.run.eval f = .ok a) :
    (t >>= k).run.eval f = (k a).run.eval f := by
  show (t.run >>= ExceptT.bindCont k).eval f = _
  rw [eval_bind, h]
  rfl

section Exec

variable {σ : Type x} {f : σ → (op : Op) → Ans op × σ}

/-- What the client comes to, and the state, when its calls are answered by `f`. -/
def exec (f : σ → (op : Op) → Ans op × σ) : Client Op Ans α → σ → α × σ
  | done a, s => (a, s)
  | call op n, s => (n (f s op).1).exec f (f s op).2

theorem exec_bind (t : Client Op Ans α) (k : α → Client Op Ans β) (s : σ) :
    (t >>= k).exec f s = (k (t.exec f s).1).exec f (t.exec f s).2 := by
  induction t generalizing s with
  | done a => rfl
  | call op n ih => exact ih (f s op).1 (f s op).2

theorem exec_bindExcept_ok {t : ExceptT ε (Client Op Ans) α} {k : α → ExceptT ε (Client Op Ans) β}
    {s s' : σ} {a : α} (h : t.run.exec f s = (.ok a, s')) :
    (t >>= k).run.exec f s = (k a).run.exec f s' := by
  show (t.run >>= ExceptT.bindCont k).exec f s = _
  rw [exec_bind, h]
  rfl

theorem exec_bindExcept_error {t : ExceptT ε (Client Op Ans) α}
    {k : α → ExceptT ε (Client Op Ans) β} {s s' : σ} {e : ε}
    (h : t.run.exec f s = (.error e, s')) : (t >>= k).run.exec f s = (.error e, s') := by
  show (t.run >>= ExceptT.bindCont k).exec f s = _
  rw [exec_bind, h]
  rfl

/-- What a sequence comes to that no error has ended. -/
theorem exec_bindExcept_eq_ok {t : ExceptT ε (Client Op Ans) α}
    {k : α → ExceptT ε (Client Op Ans) β} {s s' : σ} {b : β}
    (h : (t >>= k).run.exec f s = (.ok b, s')) :
    ∃ a s₁, t.run.exec f s = (.ok a, s₁) ∧ (k a).run.exec f s₁ = (.ok b, s') := by
  have hbind : (t >>= k).run.exec f s =
      (ExceptT.bindCont k (t.run.exec f s).1).exec f (t.run.exec f s).2 := exec_bind _ _ _
  rw [hbind] at h
  generalize t.run.exec f s = out at h
  obtain ⟨r, s₁⟩ := out
  cases r with
  | ok a => exact ⟨a, s₁, rfl, h⟩
  | error e => cases h

end Exec

/-- Where a client is, and the state, after up to `n` calls that `f` answers. -/
def after {σ : Type x} (f : σ → (op : Op) → Ans op × σ) :
    ℕ → Client Op Ans α → σ → Client Op Ans α × σ
  | 0, t, s => (t, s)
  | _ + 1, done a, s => (done a, s)
  | n + 1, call op next, s => (next (f s op).1).after f n (f s op).2

/-- The first `n` calls, when `f` answers them, are made where `P` holds of them. -/
def Along {σ : Type x} (f : σ → (op : Op) → Ans op × σ) (P : σ → Op → Prop) :
    ℕ → Client Op Ans α → σ → Prop
  | 0, _, _ => True
  | _ + 1, done _, _ => True
  | n + 1, call op next, s => P s op ∧ (next (f s op).1).Along f P n (f s op).2

theorem along_true {σ : Type x} (f : σ → (op : Op) → Ans op × σ) (n : ℕ) (t : Client Op Ans α)
    (s : σ) : t.Along f (fun _ _ => True) n s := by
  induction n generalizing t s with
  | zero => trivial
  | succ n ih =>
      cases t with
      | done a => trivial
      | call op next => exact ⟨trivial, ih _ _⟩

/-! ## What a client can end with -/

/-- Whatever the answers, the client ends with a value in `Q`. -/
def Yields (Q : α → Prop) : Client Op Ans α → Prop
  | done a => Q a
  | call _ n => ∀ ans, (n ans).Yields Q

theorem Yields.bind {Q : α → Prop} {R : β → Prop} {t : Client Op Ans α} {k : α → Client Op Ans β}
    (ht : t.Yields Q) (hk : ∀ a, Q a → (k a).Yields R) : (t >>= k).Yields R := by
  induction t with
  | done a => exact hk a ht
  | call op n ih => exact fun ans => ih ans (ht ans)

theorem yields_true (t : Client Op Ans α) : t.Yields fun _ => True := by
  induction t with
  | done a => trivial
  | call op n ih => exact ih

end Client

/-! ## Clients under way -/

/-- A shared state, and the clients that are under way, each with a tag. -/
structure Calls (σ : Type x) (κ : Type x) (Op : Type u) (Ans : Op → Type v) (α : Type w) where
  shared : σ
  live : List (κ × Client Op Ans α)

/-- How clients come in, how their calls are served, and what is noted when one has ended. -/
structure Server (σ : Type x) (κ : Type x) (Op : Type u) (Ans : Op → Type v) (α : Type w) where
  starts : σ → κ → Client Op Ans α → Prop
  serves : κ → (op : Op) → σ → Ans op → σ → Prop
  ends : κ → α → σ → σ
  others : σ → σ → Prop

namespace Calls

variable {σ κ : Type x} {Op : Type u} {Ans : Op → Type v} {α : Type w}

/-- What a step is about.  Of a call that is served it says who else is under way. -/
inductive Event (κ : Type x) (Op : Type u) (Ans : Op → Type v) (α : Type w)
  | started (k : κ) (t : Client Op Ans α)
  | served (rest : List (κ × Client Op Ans α)) (k : κ) (op : Op) (next : Ans op → Client Op Ans α)
      (ans : Ans op)
  | ended (k : κ) (a : α)
  | other

inductive Step (S : Server σ κ Op Ans α) (p : Calls σ κ Op Ans α) :
    Event κ Op Ans α → Calls σ κ Op Ans α → Prop
  | started {k : κ} {t : Client Op Ans α} (hstarts : S.starts p.shared k t) :
      Step S p (.started k t) ⟨p.shared, p.live ++ [(k, t)]⟩
  | served {before after : List (κ × Client Op Ans α)} {k : κ} {op : Op}
      {next : Ans op → Client Op Ans α} {ans : Ans op} {s' : σ}
      (hlive : p.live = before ++ (k, .call op next) :: after)
      (hserves : S.serves k op p.shared ans s') :
      Step S p (.served (before ++ after) k op next ans)
        ⟨s', before ++ (k, next ans) :: after⟩
  | ended {before after : List (κ × Client Op Ans α)} {k : κ} {a : α}
      (hlive : p.live = before ++ (k, .done a) :: after) :
      Step S p (.ended k a) ⟨S.ends k a p.shared, before ++ after⟩
  | other {s' : σ} (hothers : S.others p.shared s') : Step S p .other ⟨s', p.live⟩

/-- A call of the only client under way. -/
theorem Step.served_alone {S : Server σ κ Op Ans α} {k : κ} {op : Op}
    {next : Ans op → Client Op Ans α} {ans : Ans op} {s s' : σ} (h : S.serves k op s ans s') :
    Step S ⟨s, [(k, .call op next)]⟩ (.served [] k op next ans) ⟨s', [(k, next ans)]⟩ :=
  @Step.served σ κ Op Ans α S ⟨s, [(k, .call op next)]⟩ [] [] k op next ans s' rfl h

theorem Step.ended_alone {S : Server σ κ Op Ans α} {k : κ} {a : α} {s : σ} :
    Step S ⟨s, [(k, .done a)]⟩ (.ended k a) ⟨S.ends k a s, []⟩ :=
  @Step.ended σ κ Op Ans α S ⟨s, [(k, .done a)]⟩ [] [] k a rfl

/-- The runs all of whose steps keep to the rule `C`, which sees the clients under way as well. -/
def Watched (S : Server σ κ Op Ans α)
    (C : Calls σ κ Op Ans α → Event κ Op Ans α → Calls σ κ Op Ans α → Prop) :
    Calls σ κ Op Ans α → Calls σ κ Op Ans α → Prop :=
  Relation.ReflTransGen fun p q => ∃ ev, Step S p ev q ∧ C p ev q

theorem Watched.step {S : Server σ κ Op Ans α}
    {C : Calls σ κ Op Ans α → Event κ Op Ans α → Calls σ κ Op Ans α → Prop}
    {p q r : Calls σ κ Op Ans α} {ev : Event κ Op Ans α} (h : Watched S C p q)
    (hstep : Step S q ev r) (hrule : C q ev r) : Watched S C p r := .tail h ⟨ev, hstep, hrule⟩

theorem Watched.invariant {S : Server σ κ Op Ans α}
    {C : Calls σ κ Op Ans α → Event κ Op Ans α → Calls σ κ Op Ans α → Prop}
    {I : Calls σ κ Op Ans α → Prop} {p q : Calls σ κ Op Ans α}
    (hstep : ∀ {p ev q}, Step S p ev q → C p ev q → I p → I q) (h : Watched S C p q)
    (hp : I p) : I q := by
  induction h with
  | refl => exact hp
  | tail _ hlast ih =>
      obtain ⟨ev, hev, hrule⟩ := hlast
      exact hstep hev hrule ih

/-- The runs all of whose steps keep to the rule `C`, which sees the shared state before and after
the step. -/
def Run (S : Server σ κ Op Ans α) (C : σ → Event κ Op Ans α → σ → Prop) :
    Calls σ κ Op Ans α → Calls σ κ Op Ans α → Prop :=
  Relation.ReflTransGen fun p q => ∃ ev, Step S p ev q ∧ C p.shared ev q.shared

theorem Run.step {S : Server σ κ Op Ans α} {C : σ → Event κ Op Ans α → σ → Prop}
    {p q r : Calls σ κ Op Ans α} {ev : Event κ Op Ans α} (h : Run S C p q) (hstep : Step S q ev r)
    (hrule : C q.shared ev r.shared) : Run S C p r := .tail h ⟨ev, hstep, hrule⟩

/-- Calls of one of the clients under way, each made where `P` holds of it. -/
theorem Run.after_among {S : Server σ κ Op Ans α} {C : σ → Event κ Op Ans α → σ → Prop}
    {f : σ → (op : Op) → Ans op × σ} {P : σ → Op → Prop} {p : Calls σ κ Op Ans α} {k : κ}
    {before after : List (κ × Client Op Ans α)}
    (hserves : ∀ s op, S.serves k op s (f s op).1 (f s op).2)
    (hrule : ∀ s op next, P s op →
      C s (.served (before ++ after) k op next (f s op).1) (f s op).2) (n : ℕ)
    {t : Client Op Ans α} {s : σ} (hP : t.Along f P n s)
    (h : Run S C p ⟨s, before ++ (k, t) :: after⟩) :
    Run S C p ⟨(t.after f n s).2, before ++ (k, (t.after f n s).1) :: after⟩ := by
  induction n generalizing t s with
  | zero => exact h
  | succ n ih =>
      cases t with
      | done a => exact h
      | call op next =>
          exact ih hP.2 (h.step (.served rfl (hserves s op)) (hrule s op next hP.1))

/-- Calls of the only client under way. -/
theorem Run.after {S : Server σ κ Op Ans α} {C : σ → Event κ Op Ans α → σ → Prop}
    {f : σ → (op : Op) → Ans op × σ} {p : Calls σ κ Op Ans α} {k : κ}
    (hserves : ∀ s op, S.serves k op s (f s op).1 (f s op).2)
    (hrule : ∀ s op next, C s (.served [] k op next (f s op).1) (f s op).2) (n : ℕ)
    {t : Client Op Ans α} {s : σ} (h : Run S C p ⟨s, [(k, t)]⟩) :
    Run S C p ⟨(t.after f n s).2, [(k, (t.after f n s).1)]⟩ :=
  @Run.after_among σ κ Op Ans α S C f (fun _ _ => True) p k [] [] hserves
    (fun s op next _ => hrule s op next) n t s (Client.along_true f n t s) h

/-- The rule that asks something of the calls only. -/
def Guarded (G : κ → Op → σ → Prop) (s : σ) : Event κ Op Ans α → σ → Prop
  | .served _ k op _ _, _ => G k op s
  | _, _ => True

/-- The calls that are served where `G` holds of them. -/
def guarded (S : Server σ κ Op Ans α) (G : κ → Op → σ → Prop) : Server σ κ Op Ans α :=
  { S with serves := fun k op s ans s' => G k op s ∧ S.serves k op s ans s' }

theorem Run.toGuarded {S : Server σ κ Op Ans α} {G : κ → Op → σ → Prop} {p q : Calls σ κ Op Ans α}
    (h : Run S (Guarded G) p q) : Run (guarded S G) (Guarded G) p q := by
  induction h with
  | refl => exact .refl
  | @tail p q _ hlast ih =>
      obtain ⟨ev, hstep, hrule⟩ := hlast
      have hstep' : Step (guarded S G) p ev q := by
        cases hstep with
        | started hstarts => exact @Step.started σ κ Op Ans α (guarded S G) p _ _ hstarts
        | served hlive hserves => exact .served hlive ⟨hrule, hserves⟩
        | ended hlive => exact @Step.ended σ κ Op Ans α (guarded S G) p _ _ _ _ hlive
        | other hothers => exact @Step.other σ κ Op Ans α (guarded S G) p _ hothers
      exact ih.step hstep' hrule

theorem Run.invariant {S : Server σ κ Op Ans α} {C : σ → Event κ Op Ans α → σ → Prop}
    {I : Calls σ κ Op Ans α → Prop} {p q : Calls σ κ Op Ans α}
    (hstep : ∀ {p ev q}, Step S p ev q → C p.shared ev q.shared → I p → I q) (h : Run S C p q)
    (hp : I p) : I q :=
  Watched.invariant (C := fun p ev q => C p.shared ev q.shared) hstep h hp

/-! ## Rely and guarantee

`I` is an invariant of the shared state, and `R` says how the shared state may change while a client
waits.  `wp` collects what has to be shown of one client, one call at a time. -/

section Logic

variable (S : Server σ κ Op Ans α) (I : σ → Prop) (R : σ → σ → Prop) (k : κ)

/-- Every call of the client keeps `I` and `R`, and if the client ends, then in a state where `Q`
holds of its result. -/
def wp {β : Type w} (Q : β → σ → Prop) : Client Op Ans β → σ → Prop
  | .done b, s => Q b s
  | .call op next, s => ∀ s₁ ans s₂, R s s₁ → I s₁ → S.serves k op s₁ ans s₂ →
      I s₂ ∧ R s₁ s₂ ∧ wp Q (next ans) s₂

variable {S I R k}

theorem wp_mono {β : Type w} {Q Q' : β → σ → Prop} (hQ : ∀ b s, Q b s → Q' b s)
    {t : Client Op Ans β} {s : σ} (h : wp S I R k Q t s) : wp S I R k Q' t s := by
  induction t generalizing s with
  | done b => exact hQ b s h
  | call op next ih =>
      intro s₁ ans s₂ hR hI hserves
      obtain ⟨hI', hR', hnext⟩ := h s₁ ans s₂ hR hI hserves
      exact ⟨hI', hR', ih ans hnext⟩

theorem wp_bind {β γ : Type w} {Q : γ → σ → Prop} {t : Client Op Ans β}
    {f : β → Client Op Ans γ} {s : σ}
    (h : wp S I R k (fun b s => wp S I R k Q (f b) s) t s) : wp S I R k Q (t >>= f) s := by
  induction t generalizing s with
  | done b => exact h
  | call op next ih =>
      intro s₁ ans s₂ hR hI hserves
      obtain ⟨hI', hR', hnext⟩ := h s₁ ans s₂ hR hI hserves
      exact ⟨hI', hR', ih ans hnext⟩

theorem wp_bindExcept {ε β γ : Type w} {Q : Except ε γ → σ → Prop}
    {t : ExceptT ε (Client Op Ans) β} {f : β → ExceptT ε (Client Op Ans) γ} {s : σ}
    (h : wp S I R k (fun r s => (∀ b, r = .ok b → wp S I R k Q (f b).run s) ∧
      ∀ e, r = .error e → Q (.error e) s) t.run s) : wp S I R k Q (t >>= f).run s := by
  refine wp_bind (wp_mono ?_ h)
  rintro (e | b) s ⟨hok, herror⟩
  · exact herror e rfl
  · exact hok b rfl

theorem wp_lift {ε β : Type w} {Q : Except ε β → σ → Prop} {t : Client Op Ans β} {s : σ}
    (h : wp S I R k (fun b s => Q (.ok b) s) t s) :
    wp S I R k Q (ExceptT.lift t : ExceptT ε (Client Op Ans) β).run s :=
  wp_bind h

/-- What is shown of every client that comes in holds of the whole system. -/
theorem Run.sound {C : σ → Event κ Op Ans α → σ → Prop} {Q : κ → α → σ → Prop}
    (hrefl : ∀ s, R s s) (htrans : ∀ {s₁ s₂ s₃}, R s₁ s₂ → R s₂ s₃ → R s₁ s₃)
    (hstarts : ∀ s k t, I s → S.starts s k t → wp S I R k (Q k) t s)
    (hends : ∀ k a s₀ s, Q k a s₀ → R s₀ s → I s → I (S.ends k a s) ∧ R s (S.ends k a s))
    (hothers : ∀ s s', I s → S.others s s' → I s' ∧ R s s')
    {s : σ} (hs : I s) {q : Calls σ κ Op Ans α} (hrun : Run S C ⟨s, []⟩ q) : I q.shared := by
  -- every client under way has been dealt with up to an earlier state
  have hall : I q.shared ∧ ∀ c ∈ q.live, ∃ s₀, R s₀ q.shared ∧ wp S I R c.1 (Q c.1) c.2 s₀ := by
    refine hrun.invariant (I := fun q => I q.shared ∧
      ∀ c ∈ q.live, ∃ s₀, R s₀ q.shared ∧ wp S I R c.1 (Q c.1) c.2 s₀) ?_
      ⟨hs, fun c hc => absurd hc List.not_mem_nil⟩
    rintro p ev q hstep - ⟨hI, hlive⟩
    have hlater : ∀ {s'}, R p.shared s' → ∀ c ∈ p.live, ∃ s₀, R s₀ s' ∧
        wp S I R c.1 (Q c.1) c.2 s₀ := fun hR c hc => by
      obtain ⟨s₀, hR₀, hwp⟩ := hlive c hc
      exact ⟨s₀, htrans hR₀ hR, hwp⟩
    cases hstep with
    | @started k t hst =>
        refine ⟨hI, fun c hc => ?_⟩
        rcases List.mem_append.1 hc with hc | hc
        · exact hlive c hc
        · obtain rfl := List.mem_singleton.1 hc
          exact ⟨p.shared, hrefl _, hstarts _ _ _ hI hst⟩
    | @served before after k op next ans s' hl hserves =>
        obtain ⟨s₀, hR₀, hwp⟩ := hlive (k, .call op next)
          (hl ▸ List.mem_append_right _ List.mem_cons_self)
        obtain ⟨hI', hR', hnext⟩ := hwp p.shared ans s' hR₀ hI hserves
        refine ⟨hI', fun c hc => ?_⟩
        rcases List.mem_append.1 hc with hc | hc
        · exact hlater hR' c (hl ▸ List.mem_append_left _ hc)
        · rcases List.mem_cons.1 hc with rfl | hc
          · exact ⟨s', hrefl _, hnext⟩
          · exact hlater hR' c (hl ▸ List.mem_append_right _ (List.mem_cons_of_mem _ hc))
    | @ended before after k a hl =>
        obtain ⟨s₀, hR₀, hwp⟩ := hlive (k, .done a)
          (hl ▸ List.mem_append_right _ List.mem_cons_self)
        obtain ⟨hI', hR'⟩ := hends k a s₀ p.shared hwp hR₀ hI
        refine ⟨hI', fun c hc => hlater hR' c ?_⟩
        rw [hl]
        exact List.mem_append.2 ((List.mem_append.1 hc).imp id fun hc => List.mem_cons_of_mem _ hc)
    | other ho =>
        obtain ⟨hI', hR'⟩ := hothers _ _ hI ho
        exact ⟨hI', hlater hR'⟩
  exact hall.1

end Logic

end Calls

end Shardd
