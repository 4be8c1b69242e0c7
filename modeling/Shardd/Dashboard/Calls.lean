import Shardd.Gateway.Introspect

/-!
# What the dashboard calls (`apps/dashboard`)

The dashboard keeps users, API keys and their scopes in the tables of a database, and the sessions
of its command-line login in a store of its own.  Each call to one of the two may fail, before or
after it has taken effect.
-/

namespace Shardd.Dashboard

inductive AppError
  | database (message : String)
  | rateLimited
  | invalidCredentials
  | forbidden
  | notFound
  | accountFrozen
  | invalidInput (message : String)
  | conflict (message : String)
  | internal (message : String)
  deriving DecidableEq

variable {H : Type}

/-! ## Tables -/

/-- Of a profile, what is looked at. -/
structure UserProfile extends DeveloperAccount where
  email : String
  deletedAt : Option ℕ

structure KeyRow (H : Type) extends DeveloperApiKey H where
  name : String

structure ScopeRow extends DeveloperApiKeyScope where
  id : Uuid

structure NewScope where
  resourceType : ScopeResourceType
  matchType : ScopeMatchType
  resourceValue : Option String
  canRead : Bool
  canWrite : Bool

def NewScope.row (scope : NewScope) (id apiKeyId : Uuid) : ScopeRow where
  id := id
  apiKeyId := apiKeyId
  resourceType := scope.resourceType
  matchType := scope.matchType
  resourceValue := scope.resourceValue
  canRead := scope.canRead
  canWrite := scope.canWrite

structure KeyTables (H : Type) where
  users : List UserProfile
  apiKeys : List (KeyRow H)
  scopes : List ScopeRow

/-- A row to be inserted for a key, but for what the table makes of it. -/
structure NewApiKey (H : Type) where
  id : Uuid
  userId : Uuid
  name : String
  keyHash : H
  expiresAt : Option ℕ

/-- The statements of `PostgresPersistence`.  The ids are those that `Uuid::new_v4` draws. -/
inductive KeyQuery (H : Type)
  | getDeveloperAccount (userId : Uuid)
  | createApiKeyWithScopes (key : NewApiKey H) (scopes : List (Uuid × NewScope))
  | listApiKeys (userId : Uuid)
  | getApiKey (apiKeyId : Uuid)
  | lookupApiKeyByHash (keyHash : H)
  | revokeApiKey (apiKeyId : Uuid)
  | touchApiKeyLastUsed (apiKeyId : Uuid)
  | createScope (id apiKeyId : Uuid) (scope : NewScope)
  | listScopes (apiKeyId : Uuid)
  | getScope (scopeId : Uuid)
  | deleteScope (scopeId : Uuid)
  | getProfileById (userId : Uuid)

/-- What a statement returns. -/
abbrev KeyQuery.Row : KeyQuery H → Type
  | .getDeveloperAccount _ => Option DeveloperAccount
  | .getProfileById _ => Option UserProfile
  | .createApiKeyWithScopes _ _ => KeyRow H
  | .listApiKeys _ => List (KeyRow H)
  | .getApiKey _ => Option (KeyRow H)
  | .lookupApiKeyByHash _ => Option (ApiKeyWithOwner H)
  | .createScope _ _ _ => ScopeRow
  | .listScopes _ => List ScopeRow
  | .getScope _ => Option ScopeRow
  | .revokeApiKey _ | .touchApiKeyLastUsed _ | .deleteScope _ => Unit

namespace KeyTables

variable (t : KeyTables H)

/-- The tables as introspection reads them. -/
def db : DashboardDb H where
  users := t.users.map UserProfile.toDeveloperAccount
  apiKeys := t.apiKeys.map KeyRow.toDeveloperApiKey
  scopes := t.scopes.map ScopeRow.toDeveloperApiKeyScope

/-- `revoked_at = COALESCE(revoked_at, CURRENT_TIMESTAMP)`. -/
def revoke (now : ℕ) (apiKeyId : Uuid) : KeyTables H :=
  { t with
    apiKeys := t.apiKeys.map fun key =>
      if key.id = apiKeyId then { key with revokedAt := some (key.revokedAt.getD now) } else key }

def insertKey (key : NewApiKey H) (scopes : List (Uuid × NewScope)) : KeyRow H × KeyTables H :=
  let row : KeyRow H :=
    { id := key.id
      userId := key.userId
      keyHash := key.keyHash
      revokedAt := none
      expiresAt := key.expiresAt
      name := key.name }
  (row, { t with
    apiKeys := t.apiKeys ++ [row]
    scopes := t.scopes ++ scopes.map fun scope => scope.2.row scope.1 key.id })

/-- An active key of the user has the name. -/
def NameTaken (userId : Uuid) (name : String) : Prop :=
  ∃ key ∈ t.apiKeys, key.userId = userId ∧ key.name = name ∧ key.revokedAt = none

instance (userId : Uuid) (name : String) : Decidable (t.NameTaken userId name) :=
  inferInstanceAs (Decidable (∃ key ∈ t.apiKeys, _))

def uniqueViolation (constraint : String) : AppError :=
  .conflict ("Conflict (" ++ constraint ++ "): duplicate key value violates unique constraint \"" ++
    constraint ++ "\"")

/-- What is wrong with an insertion, if anything is. -/
def violation [DecidableEq H] (key : NewApiKey H) (scopes : List (Uuid × NewScope)) :
    Option AppError :=
  if ∃ row ∈ t.apiKeys, row.id = key.id then some (uniqueViolation "developer_api_keys_pkey")
  else if ∃ row ∈ t.apiKeys, row.keyHash = key.keyHash then
    some (uniqueViolation "developer_api_keys_key_hash_key")
  else if t.NameTaken key.userId key.name then
    some (.conflict ("An active API key with that name already exists. Pick another name or " ++
      "revoke the existing key."))
  else if ∀ user ∈ t.users, user.id ≠ key.userId then
    some (.database ("error returned from database: insert or update on table " ++
      "\"developer_api_keys\" violates foreign key constraint " ++
      "\"developer_api_keys_user_id_fkey\""))
  else if ¬ (t.scopes.map ScopeRow.id ++ scopes.map Prod.fst).Nodup then
    some (uniqueViolation "developer_api_key_scopes_pkey")
  else none

variable [DecidableEq H]

/-- One transaction. -/
def createApiKeyWithScopes (key : NewApiKey H) (scopes : List (Uuid × NewScope)) :
    Except AppError (KeyRow H) × KeyTables H :=
  match t.violation key scopes with
  | some err => (.error err, t)
  | none => (.ok (t.insertKey key scopes).1, (t.insertKey key scopes).2)

/-- What a statement answers at the time `now`, and the tables it leaves. -/
def run (now : ℕ) : (q : KeyQuery H) → Except AppError q.Row × KeyTables H
  | .getDeveloperAccount userId =>
      (.ok ((t.users.find? (·.id = userId)).map UserProfile.toDeveloperAccount), t)
  | .getProfileById userId =>
      (.ok (t.users.find? fun user => user.id = userId ∧ user.deletedAt = none), t)
  | .createApiKeyWithScopes key scopes => t.createApiKeyWithScopes key scopes
  | .listApiKeys userId => (.ok (t.apiKeys.filter (·.userId = userId)), t)
  | .getApiKey apiKeyId => (.ok (t.apiKeys.find? (·.id = apiKeyId)), t)
  | .lookupApiKeyByHash keyHash => (.ok (t.db.lookupApiKeyByHash keyHash), t)
  | .revokeApiKey apiKeyId => (.ok (), t.revoke now apiKeyId)
  | .touchApiKeyLastUsed _ => (.ok (), t)
  | .createScope id apiKeyId scope =>
      if ∃ row ∈ t.scopes, row.id = id then
        (.error (uniqueViolation "developer_api_key_scopes_pkey"), t)
      else if ∀ key ∈ t.apiKeys, key.id ≠ apiKeyId then
        (.error (.database ("error returned from database: insert or update on table " ++
          "\"developer_api_key_scopes\" violates foreign key constraint " ++
          "\"developer_api_key_scopes_api_key_id_fkey\"")), t)
      else (.ok (scope.row id apiKeyId), { t with scopes := t.scopes ++ [scope.row id apiKeyId] })
  | .listScopes apiKeyId => (.ok (t.scopes.filter (·.apiKeyId = apiKeyId)), t)
  | .getScope scopeId => (.ok (t.scopes.find? (·.id = scopeId)), t)
  | .deleteScope scopeId => (.ok (), { t with scopes := t.scopes.filter (·.id ≠ scopeId) })

end KeyTables

/-! ## Sessions of the command-line login -/

inductive CliAuthStatus
  | pending
  | authorized
  deriving DecidableEq

structure CliAuthSession (H : Type) where
  sessionId : String
  status : CliAuthStatus
  clientName : String
  hostname : String
  startedAt : ℕ
  expiresAt : ℕ
  userId : Option Uuid
  verificationCodeHash : Option H
  authorizedAt : Option ℕ

/-! ## Calls -/

inductive DashboardCall (H : Type)
  | query (q : KeyQuery H)
  | utcNow
  | getSession (sessionId : String)
  | putSession (session : CliAuthSession H)
  | deleteSession (sessionId : String)

abbrev DashboardCall.Answer : DashboardCall H → Type
  | .query q => Except AppError q.Row
  | .utcNow => ℕ
  | .getSession _ => Except AppError (Option (CliAuthSession H))
  | .putSession _ | .deleteSession _ => Except AppError Unit

abbrev DashboardClient (H : Type) := Client (DashboardCall H) DashboardCall.Answer

abbrev DashboardM (H : Type) := ExceptT AppError (DashboardClient H)

def query (q : KeyQuery H) : DashboardM H q.Row := ExceptT.mk (.call (.query q) .done)

def utcNow : DashboardM H ℕ := ExceptT.lift (.call .utcNow .done)

def getSession (sessionId : String) : DashboardM H (Option (CliAuthSession H)) :=
  ExceptT.mk (.call (.getSession sessionId) .done)

def putSession (session : CliAuthSession H) : DashboardM H Unit :=
  ExceptT.mk (.call (.putSession session) .done)

def deleteSession (sessionId : String) : DashboardM H Unit :=
  ExceptT.mk (.call (.deleteSession sessionId) .done)

/-- The tables, the sessions by their ids, and the time. -/
structure Stores (H : Type) where
  tables : KeyTables H
  sessions : Map String (CliAuthSession H)
  clock : ℕ

/-- What a call comes to when it does not fail. -/
def Stores.serve [DecidableEq H] (s : Stores H) :
    (op : DashboardCall H) → op.Answer × Stores H
  | .query q => ((s.tables.run s.clock q).1, { s with tables := (s.tables.run s.clock q).2 })
  | .utcNow => (s.clock, s)
  | .getSession sessionId => (.ok (s.sessions sessionId), s)
  | .putSession session =>
      (.ok (), { s with sessions := s.sessions.insert session.sessionId session })
  | .deleteSession sessionId => (.ok (), { s with sessions := s.sessions.remove sessionId })

/-- The answer of a call that fails; the clock does not. -/
def DashboardCall.failed (err : AppError) : (op : DashboardCall H) → ℕ → op.Answer
  | .query _, _ | .getSession _, _ | .putSession _, _ | .deleteSession _, _ => .error err
  | .utcNow, clock => clock

/-- What becomes of a call. -/
inductive Fate
  | served
  /-- It fails, and has done nothing. -/
  | lost (err : AppError)
  /-- It fails, and has taken effect all the same. -/
  | unanswered (err : AppError)

/-- A call that comes to this fate. -/
def Stores.meet [DecidableEq H] (s : Stores H) (op : DashboardCall H) :
    Fate → op.Answer × Stores H
  | .served => s.serve op
  | .lost err => (op.failed err s.clock, s)
  | .unanswered err => (op.failed err s.clock, (s.serve op).2)

/-- Stores, with the number of calls they have had. -/
structure Counted (H : Type) where
  stores : Stores H
  calls : ℕ

/-- Tables that have had `n` calls; nobody is logging in. -/
def Counted.at (t : KeyTables H) (now n : ℕ) : Counted H := ⟨⟨t, fun _ => none, now⟩, n⟩

/-- The `n`-th call comes to the fate `fates n`. -/
def Counted.serve [DecidableEq H] (fates : ℕ → Fate) (s : Counted H) (op : DashboardCall H) :
    op.Answer × Counted H :=
  ((s.stores.meet op (fates s.calls)).1, ⟨(s.stores.meet op (fates s.calls)).2, s.calls + 1⟩)

section Exec

variable [DecidableEq H] {fates : ℕ → Fate} {s : Counted H} {err : AppError}

lemma exec_query_served (q : KeyQuery H) (h : fates s.calls = .served) :
    (query q).run.exec (Counted.serve fates) s = ((s.stores.tables.run s.stores.clock q).1,
      ⟨{ s.stores with tables := (s.stores.tables.run s.stores.clock q).2 }, s.calls + 1⟩) := by
  show s.serve fates (.query q) = _
  unfold Counted.serve
  rw [h]
  rfl

lemma exec_query_lost (q : KeyQuery H) (h : fates s.calls = .lost err) :
    (query q).run.exec (Counted.serve fates) s = (.error err, ⟨s.stores, s.calls + 1⟩) := by
  show s.serve fates (.query q) = _
  unfold Counted.serve
  rw [h]
  rfl

lemma exec_query_unanswered (q : KeyQuery H) (h : fates s.calls = .unanswered err) :
    (query q).run.exec (Counted.serve fates) s = (.error err,
      ⟨{ s.stores with tables := (s.stores.tables.run s.stores.clock q).2 }, s.calls + 1⟩) := by
  show s.serve fates (.query q) = _
  unfold Counted.serve
  rw [h]
  rfl

end Exec

end Shardd.Dashboard
