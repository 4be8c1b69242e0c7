import Shardd.Gateway.Names
import Shardd.Lib.Client
import Shardd.Lib.Map

/-!
# Introspection of keys (`apps/dashboard/src/application/use_cases/developer_auth.rs`)

The gateway asks the dashboard whether a key allows an action on a bucket.  The dashboard reads the
row of the key together with its owner, looks at the clock, and reads the scopes of the key: three
reads, between which keys, owners and scopes may change.
-/

namespace Shardd

/-! ## Keys and scopes -/

inductive MachineAction
  | read
  | write
  | readOwnAccount
  | writeOwnAccount
  deriving DecidableEq

namespace MachineAction

/-- Whether the action concerns the caller's own account. -/
def isOwnAccount : MachineAction → Bool
  | readOwnAccount | writeOwnAccount => true
  | read | write => false

end MachineAction

inductive ScopeResourceType
  | bucket
  | control
  deriving DecidableEq

inductive ScopeMatchType
  | all
  | exact
  | withPrefix
  deriving DecidableEq

structure DeveloperAccount where
  id : Uuid
  isFrozen : Bool

/-- A key with its hash; times are in microseconds. -/
structure DeveloperApiKey (H : Type) where
  id : Uuid
  userId : Uuid
  keyHash : H
  revokedAt : Option ℕ
  expiresAt : Option ℕ

structure DeveloperApiKeyScope where
  apiKeyId : Uuid
  resourceType : ScopeResourceType
  matchType : ScopeMatchType
  resourceValue : Option String
  canRead : Bool
  canWrite : Bool

structure ApiKeyWithOwner (H : Type) where
  apiKey : DeveloperApiKey H
  user : DeveloperAccount

structure MatchedScope where
  matchType : ScopeMatchType
  resourceValue : Option String

structure MachineAuthDecision where
  valid : Bool
  allowed : Bool
  userId : Option Uuid
  cacheTtlMs : ℕ
  denialReason : Option String
  matchedScope : Option MatchedScope

def scopeAllows (scope : DeveloperApiKeyScope) (action : MachineAction) (bucket : String) : Bool :=
  let permissionGranted := match action with
    | .read | .readOwnAccount => scope.canRead
    | .write | .writeOwnAccount => scope.canWrite
  if !permissionGranted then false
  else if action.isOwnAccount then
    decide (scope.resourceType = .control) && decide (scope.matchType = .all) &&
      scope.resourceValue.isNone
  else if scope.resourceType ≠ .bucket then false
  else match scope.matchType with
    | .all => true
    | .exact => scope.resourceValue == some bucket
    | .withPrefix => scope.resourceValue.any fun value => value.toList.isPrefixOf bucket.toList

/-- The tables of the dashboard; the scopes are in the order in which they are listed. -/
structure DashboardDb (H : Type) where
  users : List DeveloperAccount
  apiKeys : List (DeveloperApiKey H)
  scopes : List DeveloperApiKeyScope

namespace DashboardDb

variable {H : Type} [DecidableEq H] (db : DashboardDb H)

def lookupApiKeyByHash (keyHash : H) : Option (ApiKeyWithOwner H) := do
  let apiKey ← db.apiKeys.find? (·.keyHash = keyHash)
  let user ← db.users.find? (·.id = apiKey.userId)
  return ⟨apiKey, user⟩

def listScopes (apiKeyId : Uuid) : List DeveloperApiKeyScope :=
  db.scopes.filter (·.apiKeyId = apiKeyId)

end DashboardDb

/-! ## Calls -/

/-- What the gateway answers a caller from. -/
structure DashboardDecision where
  valid : Bool
  allowed : Bool
  userId : Option Uuid
  cacheTtlMs : ℕ
  denialReason : Option String

def MachineAuthDecision.received (d : MachineAuthDecision) : DashboardDecision where
  valid := d.valid
  allowed := d.allowed
  userId := d.userId
  cacheTtlMs := d.cacheTtlMs
  denialReason := d.denialReason

structure CachedDecision where
  decision : DashboardDecision
  expiresAtUnixMs : ℕ

/-- What an authorization does with the world: the clock and the cache of the gateway, the request
and the response on the way, and the session keys, the tables and the clock of the dashboard. -/
inductive AuthCall (H : Type)
  | nowMs
  | cacheGet (key : H)
  | cacheRemove (key : H)
  | cacheInsert (key : H) (entry : CachedDecision)
  | request
  | response
  | verifySession (token : String)
  | lookupApiKeyByHash (keyHash : H)
  | utcNow
  | listScopes (apiKeyId : Uuid)
  | touchApiKeyLastUsed (apiKeyId : Uuid)

abbrev AuthCall.Answer {H : Type} : AuthCall H → Type
  | .nowMs | .utcNow => ℕ
  | .cacheGet _ => Option CachedDecision
  | .cacheRemove _ | .cacheInsert _ _ => Unit
  | .request | .response | .touchApiKeyLastUsed _ => Except String Unit
  | .verifySession _ => Except String Uuid
  | .lookupApiKeyByHash _ => Except String (Option (ApiKeyWithOwner H))
  | .listScopes _ => Except String (List DeveloperApiKeyScope)

abbrev AuthClient (H : Type) := Client (AuthCall H) AuthCall.Answer

abbrev AuthM (H : Type) := ExceptT String (AuthClient H)

variable {H : Type}

def utcNow : AuthClient H ℕ := .call .utcNow .done

def verifySession (token : String) : AuthM H Uuid := ExceptT.mk (.call (.verifySession token) .done)

def lookupApiKeyByHash (keyHash : H) : AuthM H (Option (ApiKeyWithOwner H)) :=
  ExceptT.mk (.call (.lookupApiKeyByHash keyHash) .done)

def listScopes (apiKeyId : Uuid) : AuthM H (List DeveloperApiKeyScope) :=
  ExceptT.mk (.call (.listScopes apiKeyId) .done)

def touchApiKeyLastUsed (apiKeyId : Uuid) : AuthM H Unit :=
  ExceptT.mk (.call (.touchApiKeyLastUsed apiKeyId) .done)

/-- What the dashboard knows of the tokens of its own sessions, from their headers and with its
session key. -/
structure Sessions where
  hasKid : String → Bool
  verify : String → ℕ → Except String Uuid

/-! ## Introspection -/

def denied (valid : Bool) (userId : Option Uuid) (reason : String) : MachineAuthDecision where
  valid := valid
  allowed := false
  userId := userId
  cacheTtlMs := 0
  denialReason := some reason
  matchedScope := none

def allowedBy (ttl : ℕ) (found : ApiKeyWithOwner H) (scope : DeveloperApiKeyScope) :
    MachineAuthDecision where
  valid := true
  allowed := true
  userId := some found.user.id
  cacheTtlMs := ttl
  denialReason := none
  matchedScope := some ⟨scope.matchType, scope.resourceValue⟩

/-- `expires_at <= Utc::now()`, for a key that expires. -/
def keyExpired (apiKey : DeveloperApiKey H) : AuthClient H Bool :=
  match apiKey.expiresAt with
  | none => pure false
  | some expiresAt => do
    let now ← utcNow
    pure (decide (expiresAt ≤ now))

/-- The scopes of a key that is in order; `ttl` is the time for which an allow may be cached. -/
def matchScope (ttl : ℕ) (found : ApiKeyWithOwner H) (action : MachineAction) (bucket : String) :
    AuthM H MachineAuthDecision := do
  let scopes ← listScopes found.apiKey.id
  match scopes.find? (scopeAllows · action bucket) with
  | none => return denied true (some found.user.id) "scope_denied"
  | some scope =>
    touchApiKeyLastUsed found.apiKey.id
    return allowedBy ttl found scope

/-- A key that has been found, with its owner. -/
def introspectKey (ttl : ℕ) (found : ApiKeyWithOwner H) (action : MachineAction)
    (bucket : String) : AuthM H MachineAuthDecision :=
  if found.user.isFrozen then return denied false (some found.user.id) "user_frozen"
  else if found.apiKey.revokedAt.isSome then
    return denied false (some found.user.id) "api_key_revoked"
  else do
    if ← (keyExpired found.apiKey : AuthClient H Bool) then
      return denied false (some found.user.id) "api_key_expired"
    else matchScope ttl found action bucket

/-- `sha256` is the hash of a text. -/
def introspect (sha256 : String → H) (ttl : ℕ) (rawKey : String) (action : MachineAction)
    (bucket : String) : AuthM H MachineAuthDecision :=
  if trim rawKey.toList = [] then return denied false none "missing_api_key"
  else do
    match ← lookupApiKeyByHash (sha256 rawKey) with
    | none => return denied false none "invalid_api_key"
    | some found => introspectKey ttl found action bucket

def allowedBySession (ttl : ℕ) (userId : Uuid) : MachineAuthDecision where
  valid := true
  allowed := true
  userId := some userId
  cacheTtlMs := ttl
  denialReason := none
  matchedScope := none

/-- The route; the token of a session of the dashboard stands for the account of its user. -/
def machineIntrospect (sha256 : String → H) (sessions : Sessions) (ttl : ℕ) (apiKey : String)
    (action : MachineAction) (bucket : String) : AuthM H MachineAuthDecision := do
  if sessions.hasKid apiKey then
    let userId ← verifySession apiKey
    if action.isOwnAccount then return allowedBySession ttl userId
    else return denied true (some userId) "scope_denied"
  else introspect sha256 ttl apiKey action bucket

/-! ## Introspection at given times -/

/-- The answers of a dashboard whose clock stands at `time`, with the keys and accounts of `keys`
and the scopes of `scopes`. -/
def answersAt [DecidableEq H] (sessions : Sessions) (time : ℕ) (keys scopes : DashboardDb H) :
    (op : AuthCall H) → op.Answer
  | .nowMs => time / 1000
  | .utcNow => time
  | .cacheGet _ => none
  | .cacheRemove _ | .cacheInsert _ _ => ()
  | .request | .response | .touchApiKeyLastUsed _ => .ok ()
  | .verifySession token => sessions.verify token time
  | .lookupApiKeyByHash keyHash => .ok (keys.lookupApiKeyByHash keyHash)
  | .listScopes apiKeyId => .ok (scopes.listScopes apiKeyId)

/-- An introspection with these answers allows the action for `u`. -/
def AllowsAt [DecidableEq H] (sha256 : String → H) (sessions : Sessions) (time : ℕ)
    (keys scopes : DashboardDb H) (apiKey : String) (action : MachineAction) (bucket : String)
    (u : Uuid) : Prop :=
  ∃ ttl d, (machineIntrospect sha256 sessions ttl apiKey action bucket).run.eval
      (answersAt sessions time keys scopes) = .ok d ∧ d.allowed = true ∧ d.userId = some u

section Allows

variable [DecidableEq H] {sha256 : String → H} {sessions : Sessions} {time ttl : ℕ}
  {keys scopes : DashboardDb H} {apiKey bucket : String} {action : MachineAction}
  {found : ApiKeyWithOwner H} {scope : DeveloperApiKeyScope} {u : Uuid}

lemma eval_matchScope (hscope : (scopes.listScopes found.apiKey.id).find?
      (scopeAllows · action bucket) = some scope) :
    (matchScope ttl found action bucket).run.eval (answersAt sessions time keys scopes) =
      .ok (allowedBy ttl found scope) := by
  have hlist : (listScopes found.apiKey.id).run.eval (answersAt sessions time keys scopes) =
      .ok (scopes.listScopes found.apiKey.id) := rfl
  unfold matchScope
  rw [Client.eval_bindExcept hlist, hscope]
  rfl

lemma eval_keyExpired (hexpires : ∀ expiresAt, found.apiKey.expiresAt = some expiresAt →
      time < expiresAt) :
    (keyExpired found.apiKey).eval (answersAt sessions time keys scopes) = false := by
  unfold keyExpired
  split
  · rfl
  next expiresAt hexpiresAt =>
    exact decide_eq_false (Nat.not_le.2 (hexpires expiresAt hexpiresAt))

/-- A key that is in order, and a scope that matches. -/
lemma allowsAt_of_key (hkid : sessions.hasKid apiKey = false) (htrim : trim apiKey.toList ≠ [])
    (hfound : keys.lookupApiKeyByHash (sha256 apiKey) = some found)
    (hfrozen : found.user.isFrozen = false) (hrevoked : found.apiKey.revokedAt = none)
    (hexpires : ∀ expiresAt, found.apiKey.expiresAt = some expiresAt → time < expiresAt)
    (hscope : (scopes.listScopes found.apiKey.id).find? (scopeAllows · action bucket) =
      some scope) :
    AllowsAt sha256 sessions time keys scopes apiKey action bucket found.user.id := by
  refine ⟨0, allowedBy 0 found scope, ?_, rfl, rfl⟩
  have hlookup : (lookupApiKeyByHash (sha256 apiKey)).run.eval
      (answersAt sessions time keys scopes) = .ok (some found) := congrArg Except.ok hfound
  have hexpired : (ExceptT.lift (keyExpired found.apiKey) : AuthM H Bool).run.eval
      (answersAt sessions time keys scopes) = .ok false :=
    (Client.eval_bind _ (keyExpired found.apiKey) _).trans
      (congrArg Except.ok (eval_keyExpired hexpires))
  have hkey : (introspectKey 0 found action bucket).run.eval
      (answersAt sessions time keys scopes) = .ok (allowedBy 0 found scope) := by
    unfold introspectKey
    rw [if_neg (by simp [hfrozen]), if_neg (by simp [hrevoked])]
    exact (Client.eval_bindExcept hexpired).trans (eval_matchScope hscope)
  unfold machineIntrospect introspect
  rw [if_neg (by simp [hkid]), if_neg htrim, Client.eval_bindExcept hlookup]
  exact hkey

lemma allowsAt_of_session (hkid : sessions.hasKid apiKey = true)
    (hverify : sessions.verify apiKey time = .ok u) (haction : action.isOwnAccount = true) :
    AllowsAt sha256 sessions time keys scopes apiKey action bucket u := by
  have hsession : (verifySession apiKey).run.eval (answersAt sessions time keys scopes) =
      (.ok u : Except String Uuid) := hverify
  refine ⟨0, allowedBySession 0 u, ?_, rfl, rfl⟩
  unfold machineIntrospect
  rw [if_pos hkid, Client.eval_bindExcept hsession, if_pos haction]
  rfl

end Allows

end Shardd
