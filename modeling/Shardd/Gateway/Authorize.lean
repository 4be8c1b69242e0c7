import Shardd.Gateway.Introspect

/-!
# Authorization (`GatewayAuthClient::authorize` in `apps/gateway/src/main.rs`)

The gateway keeps allows of the dashboard for some time, under a hash of key, action and bucket.
Whatever happens on the dashboard in the meantime, what a caller is allowed from the cache has been
allowed by an introspection of the same key for the same action on the same bucket, not longer ago
than that.
-/

namespace Shardd

variable {H : Type}

/-! ## The gateway -/

def MachineAction.text : MachineAction → String
  | .read => "read"
  | .write => "write"
  | .readOwnAccount => "read_own_account"
  | .writeOwnAccount => "write_own_account"

/-- The texts that are hashed for `auth_cache_key`. -/
def authCacheText (apiKey : String) (action : MachineAction) (bucket : String) : String :=
  String.ofList (apiKey.toList ++ Char.ofNat 0 ::
    (action.text.toList ++ Char.ofNat 0 :: bucket.toList))

def authCacheKey (sha256 : String → H) (apiKey : String) (action : MachineAction)
    (bucket : String) : H :=
  sha256 (authCacheText apiKey action bucket)

/-- `HeaderValue::to_str`. -/
def headerToStr (raw : List UInt8) : Option (List Char) :=
  if raw.all fun b => b = 9 || (32 ≤ b && b < 127) then
    some (raw.map fun b => Char.ofNat b.toNat)
  else none

/-- The key in an `Authorization` header. -/
def bearerToken (authorization : Option (List UInt8)) : Option String := do
  let raw ← headerToStr (← authorization)
  let token ← (stripPrefix "Bearer ".toList raw).or (stripPrefix "bearer ".toList raw)
  if trim token = [] then none else some (String.ofList token)

def gatewayNowMs : AuthClient H ℕ := .call .nowMs .done

def cacheGet (key : H) : AuthClient H (Option CachedDecision) := .call (.cacheGet key) .done

def cacheRemove (key : H) : AuthClient H Unit := .call (.cacheRemove key) .done

def cacheInsert (key : H) (entry : CachedDecision) : AuthClient H Unit :=
  .call (.cacheInsert key entry) .done

def sendRequest : AuthM H Unit := ExceptT.mk (.call .request .done)

def awaitResponse : AuthM H Unit := ExceptT.mk (.call .response .done)

/-- What the gateway gets for an introspection; an error of the dashboard is its status and body. -/
def askDashboard (introspection : AuthM H MachineAuthDecision) : AuthM H DashboardDecision := do
  sendRequest
  let answer ← ExceptT.lift (introspection.run : AuthClient H (Except String MachineAuthDecision))
  awaitResponse
  match answer with
  | .error err => throw ("dashboard introspection failed with " ++ err)
  | .ok decision => return decision.received

/-- Past the cache. -/
def authorizeFresh (sha256 : String → H) (sessions : Sessions) (ttl : ℕ) (apiKey : String)
    (action : MachineAction) (bucket : String) (now : ℕ) : AuthM H DashboardDecision := do
  let cacheKey := authCacheKey sha256 apiKey action bucket
  (cacheRemove cacheKey : AuthClient H Unit)
  let decision ← askDashboard (machineIntrospect sha256 sessions ttl apiKey action bucket)
  if decision.allowed ∧ 0 < decision.cacheTtlMs then
    -- `u64` arithmetic
    (cacheInsert cacheKey ⟨decision, (now + decision.cacheTtlMs) % 2 ^ 64⟩ : AuthClient H Unit)
  return decision

def authorize (sha256 : String → H) (sessions : Sessions) (ttl : ℕ) (apiKey : String)
    (action : MachineAction) (bucket : String) : AuthM H DashboardDecision := do
  let now ← (gatewayNowMs : AuthClient H ℕ)
  match ← (cacheGet (authCacheKey sha256 apiKey action bucket) :
      AuthClient H (Option CachedDecision)) with
  | some entry =>
      if now < entry.expiresAtUnixMs then return entry.decision
      else authorizeFresh sha256 sessions ttl apiKey action bucket now
  | none => authorizeFresh sha256 sessions ttl apiKey action bucket now

/-! ## Gateway and dashboard -/

/-- A call of `authorize`, with the time at which it began. -/
structure AuthRequest where
  apiKey : String
  action : MachineAction
  bucket : String
  began : ℕ

/-- The clock (in microseconds), the cache of the gateway and the tables of the dashboard. -/
structure Authorizing (H : Type) where
  clock : ℕ
  cache : Map H CachedDecision
  db : DashboardDb H
  /-- History: the tables there have been, and when. -/
  history : List (ℕ × DashboardDb H)
  /-- History: the answers, and when they were given. -/
  answers : List (AuthRequest × Except String DashboardDecision × ℕ)

section System

variable [DecidableEq H]

/-- How a call is served.  Requests and responses may be lost, and the tables may fail. -/
inductive Authorizing.Serves (sessions : Sessions) (x : Authorizing H) :
    (op : AuthCall H) → op.Answer → Authorizing H → Prop
  | nowMs : Serves sessions x .nowMs (x.clock / 1000) x
  | cacheGet (key : H) : Serves sessions x (.cacheGet key) (x.cache key) x
  | cacheRemove (key : H) :
      Serves sessions x (.cacheRemove key) () { x with cache := x.cache.remove key }
  | cacheInsert (key : H) (entry : CachedDecision) :
      Serves sessions x (.cacheInsert key entry) () { x with cache := x.cache.insert key entry }
  | request (r : Except String Unit) : Serves sessions x .request r x
  | response (r : Except String Unit) : Serves sessions x .response r x
  | verifySession (token : String) :
      Serves sessions x (.verifySession token) (sessions.verify token x.clock) x
  | lookupApiKeyByHash (keyHash : H) :
      Serves sessions x (.lookupApiKeyByHash keyHash) (.ok (x.db.lookupApiKeyByHash keyHash)) x
  | lookupFailed (keyHash : H) (err : String) :
      Serves sessions x (.lookupApiKeyByHash keyHash) (.error err) x
  | utcNow : Serves sessions x .utcNow x.clock x
  | listScopes (apiKeyId : Uuid) :
      Serves sessions x (.listScopes apiKeyId) (.ok (x.db.listScopes apiKeyId)) x
  | listScopesFailed (apiKeyId : Uuid) (err : String) :
      Serves sessions x (.listScopes apiKeyId) (.error err) x
  | touchApiKeyLastUsed (apiKeyId : Uuid) (r : Except String Unit) :
      Serves sessions x (.touchApiKeyLastUsed apiKeyId) r x

/-- The answers when nothing is lost and nothing fails. -/
def Authorizing.serve (sessions : Sessions) (x : Authorizing H) :
    (op : AuthCall H) → op.Answer × Authorizing H
  | .nowMs => (x.clock / 1000, x)
  | .utcNow => (x.clock, x)
  | .cacheGet key => (x.cache key, x)
  | .cacheRemove key => ((), { x with cache := x.cache.remove key })
  | .cacheInsert key entry => ((), { x with cache := x.cache.insert key entry })
  | .request | .response | .touchApiKeyLastUsed _ => (.ok (), x)
  | .verifySession token => (sessions.verify token x.clock, x)
  | .lookupApiKeyByHash keyHash => (.ok (x.db.lookupApiKeyByHash keyHash), x)
  | .listScopes apiKeyId => (.ok (x.db.listScopes apiKeyId), x)

lemma Authorizing.serves_serve (sessions : Sessions) (x : Authorizing H) (op : AuthCall H) :
    x.Serves sessions op (x.serve sessions op).1 (x.serve sessions op).2 := by
  cases op <;> constructor

/-- The gateway starts with an empty cache. -/
def Authorizing.start (clock : ℕ) (db : DashboardDb H) : Authorizing H where
  clock := clock
  cache := fun _ => none
  db := db
  history := [(clock, db)]
  answers := []

/-- Any number of calls of `authorize` with keys from headers, while time goes by and the tables of
the dashboard change in any way. -/
def authServer (sha256 : String → H) (sessions : Sessions) (ttl : ℕ) :
    Server (Authorizing H) AuthRequest (AuthCall H) AuthCall.Answer
      (Except String DashboardDecision) where
  starts x req t := req.began = x.clock ∧ (∃ header, bearerToken header = some req.apiKey) ∧
    t = (authorize sha256 sessions ttl req.apiKey req.action req.bucket).run
  serves _ op x ans x' := x.Serves sessions op ans x'
  ends req r x := { x with answers := x.answers ++ [(req, r, x.clock)] }
  others x x' := ∃ clock db, x.clock ≤ clock ∧
    x' = { x with clock := clock, db := db, history := x.history ++ [(clock, db)] }

end System

/-! ## Keys of the cache -/

section Keys

lemma nul_notMem_text (action : MachineAction) : Char.ofNat 0 ∉ action.text.toList := by
  cases action <;> decide

lemma MachineAction.text_injective {a b : MachineAction} (h : a.text = b.text) : a = b := by
  revert h
  cases a <;> cases b <;> decide

/-- Without a NUL in the keys, the three texts are read back from what is hashed. -/
lemma authCacheText_inj {apiKey apiKey' bucket bucket' : String} {action action' : MachineAction}
    (hkey : Char.ofNat 0 ∉ apiKey.toList) (hkey' : Char.ofNat 0 ∉ apiKey'.toList)
    (h : authCacheText apiKey action bucket = authCacheText apiKey' action' bucket') :
    apiKey = apiKey' ∧ action = action' ∧ bucket = bucket' := by
  have hlist := String.ofList_injective h
  have hsplit := (splitOnce_eq_some_iff (c := Char.ofNat 0)).2 ⟨hlist, hkey'⟩
  rw [(splitOnce_eq_some_iff (c := Char.ofNat 0)).2 ⟨rfl, hkey⟩, Option.some.injEq,
    Prod.mk.injEq] at hsplit
  obtain ⟨hkeys, hrest⟩ := hsplit
  have hsplit := (splitOnce_eq_some_iff (c := Char.ofNat 0)).2 ⟨hrest, nul_notMem_text action'⟩
  rw [(splitOnce_eq_some_iff (c := Char.ofNat 0)).2 ⟨rfl, nul_notMem_text action⟩,
    Option.some.injEq, Prod.mk.injEq] at hsplit
  exact ⟨String.toList_inj.1 hkeys, MachineAction.text_injective (String.toList_inj.1 hsplit.1),
    String.toList_inj.1 hsplit.2⟩

/-- A header has no NUL. -/
lemma nul_notMem_headerToStr {raw : List UInt8} {text : List Char}
    (h : headerToStr raw = some text) : Char.ofNat 0 ∉ text := by
  unfold headerToStr at h
  split at h
  next hall =>
    obtain rfl := Option.some.inj h
    intro hmem
    obtain ⟨b, hb, heq⟩ := List.mem_map.1 hmem
    have hvisible := List.all_eq_true.1 hall b hb
    have hvalid : b.toNat.isValidChar := .inl (b.toNat_lt.trans (by decide))
    have hzero : b.toNat = 0 := by
      have hcode := congrArg Char.toNat heq
      rw [Char.ofNat, dif_pos hvalid] at hcode
      exact hcode
    have hzero : b = 0 := UInt8.toNat_inj.1 hzero
    rw [hzero] at hvisible
    exact absurd hvisible (by decide)
  next => cases h

lemma nul_notMem_bearerToken {header : Option (List UInt8)} {token : String}
    (h : bearerToken header = some token) : Char.ofNat 0 ∉ token.toList := by
  unfold bearerToken at h
  simp only [Option.bind_eq_bind, Option.bind_eq_some_iff] at h
  obtain ⟨bytes, -, raw, hraw, rest, hrest, htoken⟩ := h
  split at htoken
  · cases htoken
  obtain rfl := Option.some.inj htoken
  rw [String.toList_ofList]
  intro hmem
  refine nul_notMem_headerToStr hraw ?_
  rcases Option.or_eq_some_iff.1 hrest with hrest | ⟨-, hrest⟩
  · rw [stripPrefix_eq_some_iff.1 hrest]
    exact List.mem_append_right _ hmem
  · rw [stripPrefix_eq_some_iff.1 hrest]
    exact List.mem_append_right _ hmem

end Keys

/-! ## What the cache allows has been allowed -/

section Sound

variable [DecidableEq H] (sha256 : String → H) (sessions : Sessions) (ttl : ℕ)

/-- Between `lo` and `hi` the key and its owner were such, and some time later its scopes, that an
introspection of the one and the other allows the action for `u`. -/
def Vouched (history : List (ℕ × DashboardDb H)) (lo hi : ℕ) (apiKey : String)
    (action : MachineAction) (bucket : String) (u : Uuid) : Prop :=
  ∃ time keys time' scopes, (time, keys) ∈ history ∧ (time', scopes) ∈ history ∧ lo ≤ time ∧
    time ≤ time' ∧ time' ≤ hi ∧ AllowsAt sha256 sessions time keys scopes apiKey action bucket u

variable {sha256 sessions} in
lemma Vouched.mono {history history' : List (ℕ × DashboardDb H)} {lo lo' hi hi' : ℕ}
    {apiKey bucket : String} {action : MachineAction} {u : Uuid}
    (h : Vouched sha256 sessions history lo hi apiKey action bucket u)
    (hhistory : history ⊆ history') (hlo : lo' ≤ lo) (hhi : hi ≤ hi') :
    Vouched sha256 sessions history' lo' hi' apiKey action bucket u := by
  obtain ⟨time, keys, time', scopes, hkeys, hscopes, hbegin, horder, hend, hallows⟩ := h
  exact ⟨time, keys, time', scopes, hhistory hkeys, hhistory hscopes, hlo.trans hbegin, horder,
    hend.trans hhi, hallows⟩

/-- What always holds: only allows are cached, each for the one key, action and bucket it was given
for, and answers are as the theorem says. -/
structure Sound (x : Authorizing H) : Prop where
  present : (x.clock, x.db) ∈ x.history
  past : ∀ e ∈ x.history, e.1 ≤ x.clock
  cache : ∀ key entry, x.cache key = some entry → entry.decision.allowed = true ∧
    ∀ apiKey action bucket, Char.ofNat 0 ∉ apiKey.toList →
      authCacheKey sha256 apiKey action bucket = key →
      ∃ u made, entry.decision.userId = some u ∧ entry.expiresAtUnixMs ≤ made + ttl ∧
        Vouched sha256 sessions x.history (1000 * made) x.clock apiKey action bucket u
  answers : ∀ req d time, (req, .ok d, time) ∈ x.answers → d.allowed = true →
    ∃ u, d.userId = some u ∧ Vouched sha256 sessions x.history (req.began - 1000 * ttl) time
      req.apiKey req.action req.bucket u

/-- Time goes by, and nothing is forgotten. -/
structure Later (x x' : Authorizing H) : Prop where
  clock : x.clock ≤ x'.clock
  history : x.history ⊆ x'.history

omit [DecidableEq H] in
lemma Later.refl (x : Authorizing H) : Later x x := ⟨le_rfl, List.Subset.refl _⟩

omit [DecidableEq H] in
lemma Later.trans {x y z : Authorizing H} (h : Later x y) (h' : Later y z) : Later x z :=
  ⟨h.clock.trans h'.clock, List.Subset.trans h.history h'.history⟩

variable {sha256 sessions ttl} {req : AuthRequest} {x : Authorizing H} {apiKey bucket : String}
  {action : MachineAction}

/-- What is shown of an introspection that began at `lo`: if it allows the action, then rightly. -/
def Judged (sha256 : String → H) (sessions : Sessions) (ttl lo : ℕ) (apiKey : String)
    (action : MachineAction) (bucket : String) (r : Except String MachineAuthDecision)
    (x : Authorizing H) : Prop :=
  ∀ d, r = .ok d → d.allowed = true → ∃ u, d.userId = some u ∧ d.cacheTtlMs = ttl ∧
    Vouched sha256 sessions x.history lo x.clock apiKey action bucket u

lemma judged_denied {lo : ℕ} {valid : Bool} {userId : Option Uuid} {reason : String} :
    Judged sha256 sessions ttl lo apiKey action bucket (.ok (denied valid userId reason)) x := by
  intro d hd hallowed
  obtain rfl := Except.ok.inj hd
  cases hallowed

lemma judged_error {lo : ℕ} {err : String} :
    Judged sha256 sessions ttl lo apiKey action bucket (.error err) x := by
  intro d hd
  cases hd

/-- The scopes of a key that was in order at `time`. -/
lemma wp_matchScope {lo time : ℕ} {keys : DashboardDb H} {found : ApiKeyWithOwner H}
    (hkeys : (time, keys) ∈ x.history) (hlo : lo ≤ time) (htime : time ≤ x.clock)
    (hallows : ∀ (scopes : DashboardDb H) (scope : DeveloperApiKeyScope),
      (scopes.listScopes found.apiKey.id).find? (scopeAllows · action bucket) = some scope →
        AllowsAt sha256 sessions time keys scopes apiKey action bucket found.user.id) :
    Calls.wp (authServer sha256 sessions ttl) (Sound sha256 sessions ttl) Later req
      (Judged sha256 sessions ttl lo apiKey action bucket)
      (matchScope ttl found action bucket).run x := by
  unfold matchScope
  refine Calls.wp_bindExcept fun x₁ ans x₂ hlater hsound hserves => ?_
  cases hserves with
  | listScopes _ =>
      refine ⟨hsound, .refl _, fun scopes hscopes => ?_, fun err _ => judged_error⟩
      obtain rfl := Except.ok.inj hscopes
      rcases hfind : (x₁.db.listScopes found.apiKey.id).find? (scopeAllows · action bucket)
        with _ | scope
      · exact judged_denied
      · refine Calls.wp_bindExcept fun x₃ ans x₄ hlater' hsound' hserves' => ?_
        cases hserves' with
        | touchApiKeyLastUsed _ r =>
            refine ⟨hsound', .refl _, fun _ _ => ?_, fun err _ => judged_error⟩
            intro d hd _
            obtain rfl := Except.ok.inj hd
            exact ⟨_, rfl, rfl, time, keys, x₁.clock, x₁.db,
              hlater'.history (hlater.history hkeys), hlater'.history hsound.present, hlo,
              htime.trans hlater.clock, hlater'.clock, hallows x₁.db scope hfind⟩
  | listScopesFailed _ err =>
      exact ⟨hsound, .refl _, (fun scopes hscopes => by cases hscopes), fun err _ => judged_error⟩

lemma wp_introspectKey {lo time : ℕ} {keys : DashboardDb H} {found : ApiKeyWithOwner H}
    (hkid : sessions.hasKid apiKey = false) (htrim : trim apiKey.toList ≠ [])
    (hfound : keys.lookupApiKeyByHash (sha256 apiKey) = some found)
    (hkeys : (time, keys) ∈ x.history) (hlo : lo ≤ time) (htime : time ≤ x.clock) :
    Calls.wp (authServer sha256 sessions ttl) (Sound sha256 sessions ttl) Later req
      (Judged sha256 sessions ttl lo apiKey action bucket)
      (introspectKey ttl found action bucket).run x := by
  unfold introspectKey
  split
  · exact judged_denied
  next hfrozen =>
    split
    · exact judged_denied
    next hrevoked =>
      have hrevoked : found.apiKey.revokedAt = none := by simpa using hrevoked
      -- a key that has not expired yet had not expired when it was looked up
      have hscopes : ∀ {y : Authorizing H}, Later x y →
          (∀ expiresAt, found.apiKey.expiresAt = some expiresAt → time < expiresAt) →
          Calls.wp (authServer sha256 sessions ttl) (Sound sha256 sessions ttl) Later req
            (Judged sha256 sessions ttl lo apiKey action bucket)
            (matchScope ttl found action bucket).run y := fun hlater hexpires =>
        wp_matchScope (hlater.history hkeys) hlo (htime.trans hlater.clock) fun _ _ =>
          allowsAt_of_key hkid htrim hfound (Bool.eq_false_iff.2 hfrozen) hrevoked hexpires
      refine Calls.wp_bindExcept (Calls.wp_lift ?_)
      unfold keyExpired
      split
      next hnever =>
        refine ⟨fun expired hexpired => ?_, fun err herr => by cases herr⟩
        obtain rfl := Except.ok.inj hexpired
        exact hscopes (.refl _) fun expiresAt hexpiresAt => by
          rw [hnever] at hexpiresAt
          cases hexpiresAt
      next expiresAt hexpiresAt =>
        intro x₁ ans x₂ hlater hsound hserves
        cases hserves with
        | utcNow =>
            refine ⟨hsound, .refl _, fun expired hexpired => ?_, fun err herr => by cases herr⟩
            obtain rfl := Except.ok.inj hexpired
            by_cases hlate : expiresAt ≤ x₁.clock
            · rw [if_pos (decide_eq_true hlate)]
              exact judged_denied
            · rw [if_neg (by simpa using hlate)]
              refine hscopes hlater fun e he => ?_
              obtain rfl := Option.some.inj (he.symm.trans hexpiresAt)
              exact (htime.trans hlater.clock).trans_lt (Nat.not_le.1 hlate)

/-- The whole introspection. -/
lemma wp_machineIntrospect {lo : ℕ} (hlo : lo ≤ x.clock) :
    Calls.wp (authServer sha256 sessions ttl) (Sound sha256 sessions ttl) Later req
      (Judged sha256 sessions ttl lo apiKey action bucket)
      (machineIntrospect sha256 sessions ttl apiKey action bucket).run x := by
  unfold machineIntrospect
  split
  next hkid =>
    refine Calls.wp_bindExcept fun x₁ ans x₂ hlater hsound hserves => ?_
    cases hserves with
    | verifySession _ =>
        refine ⟨hsound, .refl _, fun u hu => ?_, fun err _ => judged_error⟩
        split
        next haction =>
          intro d hd _
          obtain rfl := Except.ok.inj hd
          exact ⟨u, rfl, rfl, _, _, _, _, hsound.present, hsound.present, hlo.trans hlater.clock,
            le_rfl, le_rfl, allowsAt_of_session hkid hu haction⟩
        next => exact judged_denied
  next hkid =>
    unfold introspect
    split
    · exact judged_denied
    next htrim =>
      refine Calls.wp_bindExcept fun x₁ ans x₂ hlater hsound hserves => ?_
      cases hserves with
      | lookupApiKeyByHash _ =>
          refine ⟨hsound, .refl _, fun found hfound => ?_, fun err _ => judged_error⟩
          have hfound := Except.ok.inj hfound
          rcases found with _ | found
          · exact judged_denied
          · exact wp_introspectKey (Bool.eq_false_iff.2 hkid) htrim hfound hsound.present
              (hlo.trans hlater.clock) le_rfl
      | lookupFailed _ err =>
          exact ⟨hsound, .refl _, (fun found hfound => by cases hfound), fun err _ => judged_error⟩

/-- What is shown of a call of `authorize`. -/
def Approved (sha256 : String → H) (sessions : Sessions) (ttl lo : ℕ) (apiKey : String)
    (action : MachineAction) (bucket : String) (r : Except String DashboardDecision)
    (x : Authorizing H) : Prop :=
  ∀ d, r = .ok d → d.allowed = true → ∃ u, d.userId = some u ∧ d.cacheTtlMs = ttl ∧
    Vouched sha256 sessions x.history lo x.clock apiKey action bucket u

lemma approved_error {lo : ℕ} {err : String} :
    Approved sha256 sessions ttl lo apiKey action bucket (.error err) x := by
  intro d hd
  cases hd

lemma wp_askDashboard {lo : ℕ} (hlo : lo ≤ x.clock) :
    Calls.wp (authServer sha256 sessions ttl) (Sound sha256 sessions ttl) Later req
      (Approved sha256 sessions ttl lo apiKey action bucket)
      (askDashboard (machineIntrospect sha256 sessions ttl apiKey action bucket)).run x := by
  unfold askDashboard
  refine Calls.wp_bindExcept fun x₁ ans x₂ hlater hsound hserves => ?_
  cases hserves with
  | request r =>
      refine ⟨hsound, .refl _, fun _ _ => ?_, fun err _ => approved_error⟩
      refine Calls.wp_bindExcept (Calls.wp_lift (Calls.wp_mono ?_
        (wp_machineIntrospect (hlo.trans hlater.clock))))
      intro answer x₃ hjudged
      refine ⟨fun answer' hanswer => ?_, fun err herr => by cases herr⟩
      obtain rfl := Except.ok.inj hanswer
      refine Calls.wp_bindExcept fun x₄ ans x₅ hlater' hsound' hserves' => ?_
      cases hserves' with
      | response r =>
          refine ⟨hsound', .refl _, fun _ _ => ?_, fun err _ => approved_error⟩
          rcases answer with err | decision
          · exact approved_error
          · intro d hd hallowed
            obtain rfl := Except.ok.inj hd
            obtain ⟨u, hu, httl, hvouched⟩ := hjudged decision rfl hallowed
            exact ⟨u, hu, httl, hvouched.mono hlater'.history le_rfl hlater'.clock⟩

lemma Sound.cacheRemove {key : H} (h : Sound sha256 sessions ttl x) :
    Sound sha256 sessions ttl { x with cache := x.cache.remove key } where
  present := h.present
  past := h.past
  cache key' entry hentry := by
    have hentry : x.cache.remove key key' = some entry := hentry
    rw [Map.remove_apply] at hentry
    split at hentry
    · cases hentry
    · exact h.cache key' entry hentry
  answers := h.answers

/-- An allow that was given for a key without a NUL is cached for that key only. -/
lemma Sound.cacheInsert {now : ℕ} {d : DashboardDecision} (hsha : Function.Injective sha256)
    (hkey : Char.ofNat 0 ∉ apiKey.toList) (hallowed : d.allowed = true)
    (happroved : Approved sha256 sessions ttl (1000 * now) apiKey action bucket (.ok d) x)
    (h : Sound sha256 sessions ttl x) :
    Sound sha256 sessions ttl { x with
      cache := x.cache.insert (authCacheKey sha256 apiKey action bucket)
        ⟨d, (now + d.cacheTtlMs) % 2 ^ 64⟩ } where
  present := h.present
  past := h.past
  cache key' entry hentry := by
    rcases Map.of_insert hentry with hentry | ⟨rfl, rfl⟩
    · exact h.cache key' entry hentry
    refine ⟨hallowed, fun apiKey' action' bucket' hkey' hsame => ?_⟩
    obtain ⟨rfl, rfl, rfl⟩ := authCacheText_inj hkey' hkey (hsha hsame)
    obtain ⟨u, hu, httl, hvouched⟩ := happroved d rfl hallowed
    refine ⟨u, now, hu, ?_, hvouched⟩
    show (now + d.cacheTtlMs) % 2 ^ 64 ≤ now + ttl
    rw [httl]
    exact Nat.mod_le _ _
  answers := h.answers

lemma Approved.mono {lo lo' : ℕ} {r : Except String DashboardDecision}
    (h : Approved sha256 sessions ttl lo apiKey action bucket r x) {y : Authorizing H}
    (hlo : lo' ≤ lo) (hlater : Later x y) :
    Approved sha256 sessions ttl lo' apiKey action bucket r y := by
  intro d hd hallowed
  obtain ⟨u, hu, httl, hvouched⟩ := h d hd hallowed
  exact ⟨u, hu, httl, hvouched.mono hlater.history hlo hlater.clock⟩

lemma wp_authorizeFresh {lo now : ℕ} (hsha : Function.Injective sha256)
    (hkey : Char.ofNat 0 ∉ apiKey.toList) (hnow : 1000 * now ≤ lo) (hlo : lo ≤ x.clock) :
    Calls.wp (authServer sha256 sessions ttl) (Sound sha256 sessions ttl) Later req
      (Approved sha256 sessions ttl lo apiKey action bucket)
      (authorizeFresh sha256 sessions ttl apiKey action bucket now).run x := by
  unfold authorizeFresh
  refine Calls.wp_bindExcept (Calls.wp_lift fun x₁ ans x₂ hlater hsound hserves => ?_)
  cases hserves with
  | cacheRemove _ =>
      refine ⟨hsound.cacheRemove, ⟨le_rfl, List.Subset.refl _⟩, fun _ _ => ?_,
        fun err herr => by cases herr⟩
      refine Calls.wp_bindExcept (Calls.wp_mono ?_ (wp_askDashboard (hlo.trans hlater.clock)))
      intro r x₃ happroved
      refine ⟨fun d hd => ?_, fun err _ => approved_error⟩
      subst hd
      split
      next hcached =>
        refine Calls.wp_bindExcept (Calls.wp_lift fun x₄ ans x₅ hlater' hsound' hserves' => ?_)
        cases hserves' with
        | cacheInsert _ _ =>
            exact ⟨hsound'.cacheInsert hsha hkey hcached.1 (happroved.mono hnow hlater'),
              ⟨le_rfl, List.Subset.refl _⟩,
              fun _ _ => happroved.mono le_rfl ⟨hlater'.clock, hlater'.history⟩,
              fun err herr => by cases herr⟩
      next => exact happroved

/-- The answer for a request. -/
def Rightly (sha256 : String → H) (sessions : Sessions) (ttl : ℕ) (req : AuthRequest)
    (r : Except String DashboardDecision) (x : Authorizing H) : Prop :=
  ∀ d, r = .ok d → d.allowed = true → ∃ u, d.userId = some u ∧
    Vouched sha256 sessions x.history (req.began - 1000 * ttl) x.clock req.apiKey req.action
      req.bucket u

lemma Approved.rightly {lo : ℕ} {r : Except String DashboardDecision}
    (h : Approved sha256 sessions ttl lo req.apiKey req.action req.bucket r x)
    (hlo : req.began ≤ lo) : Rightly sha256 sessions ttl req r x := by
  intro d hd hallowed
  obtain ⟨u, hu, -, hvouched⟩ := h d hd hallowed
  exact ⟨u, hu, hvouched.mono (List.Subset.refl _) ((Nat.sub_le _ _).trans hlo) le_rfl⟩

/-- An entry that has not expired was made not longer ago than the time allows. -/
lemma Sound.cached {clock : ℕ} {entry : CachedDecision} (h : Sound sha256 sessions ttl x)
    (hkey : Char.ofNat 0 ∉ req.apiKey.toList)
    (hentry : x.cache (authCacheKey sha256 req.apiKey req.action req.bucket) = some entry)
    (hbegan : req.began ≤ clock) (hfresh : clock / 1000 < entry.expiresAtUnixMs) :
    Rightly sha256 sessions ttl req (.ok entry.decision) x := by
  intro d hd _
  obtain rfl := Except.ok.inj hd
  obtain ⟨-, hcached⟩ := h.cache _ entry hentry
  obtain ⟨u, made, hu, hexpires, hvouched⟩ := hcached req.apiKey req.action req.bucket hkey rfl
  have hmade : req.began - 1000 * ttl ≤ 1000 * made := by omega
  exact ⟨u, hu, hvouched.mono (List.Subset.refl _) hmade le_rfl⟩

lemma wp_authorize (hsha : Function.Injective sha256) (hkey : Char.ofNat 0 ∉ req.apiKey.toList)
    (hbegan : req.began ≤ x.clock) :
    Calls.wp (authServer sha256 sessions ttl) (Sound sha256 sessions ttl) Later req
      (Rightly sha256 sessions ttl req)
      (authorize sha256 sessions ttl req.apiKey req.action req.bucket).run x := by
  unfold authorize
  refine Calls.wp_bindExcept (Calls.wp_lift fun x₁ ans x₂ hlater hsound hserves => ?_)
  cases hserves with
  | nowMs =>
      refine ⟨hsound, .refl _, fun now hnow => ?_, fun err herr => by cases herr⟩
      obtain rfl := Except.ok.inj hnow
      have hbegan₁ : req.began ≤ x₁.clock := hbegan.trans hlater.clock
      -- past the cache, from the time of the look at the clock on
      have hpast : ∀ {y : Authorizing H}, Later x₁ y →
          Calls.wp (authServer sha256 sessions ttl) (Sound sha256 sessions ttl) Later req
            (Rightly sha256 sessions ttl req)
            (authorizeFresh sha256 sessions ttl req.apiKey req.action req.bucket
              (x₁.clock / 1000)).run y := fun hy =>
        Calls.wp_mono (fun _ _ happroved => happroved.rightly hbegan₁)
          (wp_authorizeFresh hsha hkey (Nat.mul_div_le _ _) hy.clock)
      refine Calls.wp_bindExcept (Calls.wp_lift fun x₃ ans x₄ hlater' hsound' hserves' => ?_)
      cases hserves' with
      | cacheGet _ =>
          refine ⟨hsound', .refl _, fun entry hentry => ?_, fun err herr => by cases herr⟩
          have hentry := Except.ok.inj hentry
          rcases entry with _ | entry
          · exact hpast hlater'
          · show Calls.wp _ _ _ _ _ (if x₁.clock / 1000 < entry.expiresAtUnixMs then
              (return entry.decision : AuthM H DashboardDecision) else _).run _
            split
            next hfresh => exact hsound'.cached hkey hentry hbegan₁ hfresh
            next => exact hpast hlater'

/-- An answer is given. -/
lemma Sound.answered {r : Except String DashboardDecision} (h : Sound sha256 sessions ttl x)
    (hrightly : Rightly sha256 sessions ttl req r x) :
    Sound sha256 sessions ttl ((authServer sha256 sessions ttl).ends req r x) where
  present := h.present
  past := h.past
  cache := h.cache
  answers req' d time hmem hallowed := by
    rcases List.mem_append.1 hmem with hmem | hmem
    · exact h.answers req' d time hmem hallowed
    · obtain ⟨rfl, rfl, rfl⟩ : req' = req ∧ Except.ok d = r ∧ time = x.clock := by
        simpa using hmem
      exact hrightly d rfl hallowed

/-- Time goes by, and the tables change. -/
lemma Sound.elapsed {clock : ℕ} {db : DashboardDb H} (h : Sound sha256 sessions ttl x)
    (hclock : x.clock ≤ clock) :
    Sound sha256 sessions ttl
      { x with clock := clock, db := db, history := x.history ++ [(clock, db)] } where
  present := List.mem_append_right _ List.mem_cons_self
  past e he := by
    rcases List.mem_append.1 he with he | he
    · exact (h.past e he).trans hclock
    · rw [List.mem_singleton.1 he]
  cache key entry hentry := by
    obtain ⟨hallowed, hkeys⟩ := h.cache key entry hentry
    refine ⟨hallowed, fun apiKey action bucket hnul hkey => ?_⟩
    obtain ⟨u, made, hu, hexpires, hvouched⟩ := hkeys apiKey action bucket hnul hkey
    exact ⟨u, made, hu, hexpires, hvouched.mono (List.subset_append_left _ _) le_rfl hclock⟩
  answers req d time hmem hallowed := by
    obtain ⟨u, hu, hvouched⟩ := h.answers req d time hmem hallowed
    exact ⟨u, hu, hvouched.mono (List.subset_append_left _ _) le_rfl le_rfl⟩

lemma Sound.start {clock : ℕ} {db : DashboardDb H} :
    Sound sha256 sessions ttl (.start clock db) where
  present := List.mem_cons_self
  past e he := (congrArg Prod.fst (List.mem_singleton.1 he)).le
  cache key entry hentry := by cases hentry
  answers req d time hmem := absurd hmem List.not_mem_nil

end Sound

/-! ## Results -/

variable [DecidableEq H]

/-- At any moment of any run: a call of `authorize` has answered with an allow only for the user for
whom an introspection of that key, action and bucket allows it, with the key as it was at one time
and the scopes as they were at a later time, both between the time to live before the call and its
answer; and whatever is cached is an allow. -/
theorem authorize_vouched (sha256 : String → H) (hsha : Function.Injective sha256)
    (sessions : Sessions) (ttl : ℕ) {clock : ℕ} {db : DashboardDb H}
    {p : Calls (Authorizing H) AuthRequest (AuthCall H) AuthCall.Answer
      (Except String DashboardDecision)}
    (hrun : Calls.Run (authServer sha256 sessions ttl) (fun _ _ _ => True)
      ⟨.start clock db, []⟩ p) :
    (∀ req d time, (req, .ok d, time) ∈ p.shared.answers → d.allowed = true →
      ∃ u, d.userId = some u ∧ Vouched sha256 sessions p.shared.history (req.began - 1000 * ttl)
        time req.apiKey req.action req.bucket u) ∧
    ∀ key entry, p.shared.cache key = some entry → entry.decision.allowed = true := by
  have hsound : Sound sha256 sessions ttl p.shared := by
    refine Calls.Run.sound (R := Later) (Q := Rightly sha256 sessions ttl) Later.refl Later.trans
      ?starts ?ends ?others Sound.start hrun
    case starts =>
      rintro x req t - ⟨hbegan, ⟨header, hheader⟩, rfl⟩
      exact wp_authorize hsha (nul_notMem_bearerToken hheader) hbegan.le
    case ends =>
      intro req r x₀ x hrightly hlater hsound
      exact ⟨hsound.answered fun d hd hallowed => by
        obtain ⟨u, hu, hvouched⟩ := hrightly d hd hallowed
        exact ⟨u, hu, hvouched.mono hlater.history le_rfl hlater.clock⟩,
        ⟨le_rfl, List.Subset.refl _⟩⟩
    case others =>
      rintro x - hsound ⟨clock', db', hclock, rfl⟩
      exact ⟨hsound.elapsed hclock, hclock, List.subset_append_left _ _⟩
  exact ⟨hsound.answers, fun key entry hentry => (hsound.cache key entry hentry).1⟩

section Revoked

def keyOwner : Uuid := ⟨List.replicate 16 1, rfl⟩

def apiKeyId : Uuid := ⟨List.replicate 16 7, rfl⟩

/-- One user with one key, in order or revoked, and some scopes. -/
def oneKeyDb (revokedAt : Option ℕ) (scopes : List DeveloperApiKeyScope) : DashboardDb String where
  users := [⟨keyOwner, false⟩]
  apiKeys := [⟨apiKeyId, keyOwner, "k", revokedAt, none⟩]
  scopes := scopes

def readScope : DeveloperApiKeyScope := ⟨apiKeyId, .bucket, .all, none, true, false⟩

def noSessions : Sessions where
  hasKid _ := false
  verify _ _ := .error "Invalid credentials"

def readRequest (began : ℕ) : AuthRequest := ⟨"k", .read, "b", began⟩

def readAllowed : DashboardDecision := ⟨true, true, some keyOwner, 1000, none⟩

abbrev readServer := authServer (H := String) id noSessions 1000

abbrev readClient : Client (AuthCall String) AuthCall.Answer (Except String DashboardDecision) :=
  (authorize id noSessions 1000 "k" .read "b").run

lemma readServer_starts (x : Authorizing String) :
    readServer.starts x (readRequest x.clock) readClient :=
  have hkey : bearerToken (some [66, 101, 97, 114, 101, 114, 32, 107]) = some "k" := by decide
  ⟨rfl, ⟨_, hkey⟩, rfl⟩

lemma readServer_serves (req : AuthRequest) (x : Authorizing String) (op : AuthCall String) :
    readServer.serves req op x (x.serve noSessions op).1 (x.serve noSessions op).2 :=
  x.serves_serve noSessions op

lemma run_read {p : Calls (Authorizing String) AuthRequest (AuthCall String) AuthCall.Answer
      (Except String DashboardDecision)} {x : Authorizing String}
    {r : Except String DashboardDecision}
    (hrun : Calls.Run readServer (fun _ _ _ => True) p ⟨x, []⟩)
    (hanswer : (readClient.after (Authorizing.serve noSessions) 20 x).1 = .done r) :
    Calls.Run readServer (fun _ _ _ => True) p
      ⟨readServer.ends (readRequest x.clock) r
        (readClient.after (Authorizing.serve noSessions) 20 x).2, []⟩ := by
  have hcalls := (hrun.step (.started (readServer_starts x)) trivial).after
    (readServer_serves _) (fun _ _ _ => trivial) 20
  rw [hanswer] at hcalls
  exact hcalls.step .ended_alone trivial

/-- A key that is revoked, and is used again within a second. -/
theorem authorize_vouched_revoked :
    ∃ p : Calls (Authorizing String) AuthRequest (AuthCall String) AuthCall.Answer
        (Except String DashboardDecision),
      Calls.Run readServer (fun _ _ _ => True)
        ⟨.start 5000000 (oneKeyDb none [readScope]), []⟩ p ∧
      (readRequest 5400000, .ok readAllowed, 5400000) ∈ p.shared.answers ∧
      ∃ u, readAllowed.userId = some u ∧ Vouched id noSessions p.shared.history
        (5400000 - 1000 * 1000) 5400000 "k" .read "b" u := by
  have hcached := run_read (x := .start 5000000 (oneKeyDb none [readScope])) .refl
    (r := .ok readAllowed) rfl
  have hrevoked := hcached.step (.other ⟨5400000, oneKeyDb (some 5200000) [readScope],
    (by decide : 5000000 ≤ 5400000), rfl⟩) trivial
  have hrun := run_read hrevoked (r := .ok readAllowed) rfl
  have hmem : (readRequest 5400000, (.ok readAllowed : Except String DashboardDecision), 5400000) ∈
      [(readRequest 5000000, .ok readAllowed, 5000000),
        (readRequest 5400000, .ok readAllowed, 5400000)] :=
    List.mem_cons_of_mem _ (List.mem_singleton_self _)
  have hvouched := (authorize_vouched id Function.injective_id noSessions 1000 hrun).1 _ _ _ hmem
    rfl
  exact ⟨_, hrun, hmem, hvouched⟩

lemma not_allowsAt_of_denied {time : ℕ} {db : DashboardDb String} {u : Uuid} {valid : Bool}
    {reason : String}
    (hdenied : ∀ ttl, (machineIntrospect id noSessions ttl "k" .read "b").run.eval
      (answersAt noSessions time db db) = .ok (denied valid (some keyOwner) reason)) :
    ¬ AllowsAt id noSessions time db db "k" .read "b" u := by
  rintro ⟨ttl, d, hd, hallowed, -⟩
  obtain rfl := Except.ok.inj ((hdenied ttl).symm.trans hd)
  cases hallowed

/-- The key is revoked after its row was read, and gets its scope before its scopes are read: the
action is allowed, though at no time was there a key in order with this scope. -/
theorem authorize_scope_of_revoked :
    ∃ p : Calls (Authorizing String) AuthRequest (AuthCall String) AuthCall.Answer
        (Except String DashboardDecision),
      Calls.Run readServer (fun _ _ _ => True) ⟨.start 5000000 (oneKeyDb none []), []⟩ p ∧
      (readRequest 5000000, .ok readAllowed, 5200000) ∈ p.shared.answers ∧
      ∀ e ∈ p.shared.history, ∀ time u,
        ¬ AllowsAt id noSessions time e.2 e.2 "k" .read "b" u := by
  have hstarted : Calls.Run readServer (fun _ _ _ => True)
      ⟨.start 5000000 (oneKeyDb none []), []⟩
      ⟨.start 5000000 (oneKeyDb none []), [(readRequest 5000000, readClient)]⟩ :=
    Calls.Run.step .refl (.started (readServer_starts (.start 5000000 (oneKeyDb none [])))) trivial
  have hlooked := hstarted.after (readServer_serves _) (fun _ _ _ => trivial) 5
  have hrevoked := hlooked.step (.other ⟨5100000, oneKeyDb (some 5100000) [],
    (by decide : 5000000 ≤ 5100000), rfl⟩) trivial
  have hgiven := hrevoked.step (.other ⟨5200000, oneKeyDb (some 5100000) [readScope],
    (by decide : 5100000 ≤ 5200000), rfl⟩) trivial
  have hrun := (hgiven.after (readServer_serves _) (fun _ _ _ => trivial) 20).step
    (.ended_alone (a := Except.ok readAllowed)) trivial
  refine ⟨_, hrun, List.mem_singleton_self _, fun e he time u => ?_⟩
  have hhistory : e ∈ [(5000000, oneKeyDb none []), (5100000, oneKeyDb (some 5100000) []),
      (5200000, oneKeyDb (some 5100000) [readScope])] := he
  simp only [List.mem_cons, List.not_mem_nil, or_false] at hhistory
  rcases hhistory with rfl | rfl | rfl
  · exact not_allowsAt_of_denied fun ttl => rfl
  · exact not_allowsAt_of_denied fun ttl => rfl
  · exact not_allowsAt_of_denied fun ttl => rfl

end Revoked

end Shardd
