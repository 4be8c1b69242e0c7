import Shardd.Dashboard.Keys
import Shardd.Gateway.Authorize
import Shardd.Lib.Postgres

/-!
# Keys that manage keys (`apps/dashboard/src/adapters/http/extractors.rs`, `routes/developer.rs`)

A key may call the routes under `/api/developer` when one of its scopes is a control scope of any
kind; introspection asks for a control scope with the right that the action needs.  The routes make
and change keys and scopes of the key's owner, and do not look at the key again.
-/

namespace Shardd.Dashboard

variable {H : Type}

/-! ## The extractor -/

def keyHasControlScope (scopes : List ScopeRow) : Bool :=
  scopes.any fun scope => scope.resourceType = .control ∧ (scope.canRead ∨ scope.canWrite)

def hasExpired (apiKey : DeveloperApiKey H) : DashboardM H Bool :=
  match apiKey.expiresAt with
  | none => return false
  | some expiresAt => do return expiresAt ≤ (← utcNow)

/-- The key of the header, with its owner. -/
def profileFromKey (sha256 : String → H) (rawKey : String) : DashboardM H UserProfile := do
  match ← query (.lookupApiKeyByHash (sha256 rawKey)) with
  | none => throw .invalidCredentials
  | some found =>
    if found.apiKey.revokedAt.isSome then throw .invalidCredentials
    else if ← hasExpired found.apiKey then throw .invalidCredentials
    else if found.user.isFrozen then throw .accountFrozen
    else
      let scopes ← query (.listScopes found.apiKey.id)
      if ¬ keyHasControlScope scopes then throw .forbidden
      else
        match ← query (.getProfileById found.user.id) with
        | none => throw .invalidCredentials
        | some profile =>
          if profile.isFrozen then throw .accountFrozen
          else
            -- a failure is logged and nothing else
            let _ ← ExceptT.lift (query (.touchApiKeyLastUsed found.apiKey.id)).run
            return profile

def profileFromBearer (sha256 : String → H) (authorization : Option (List UInt8)) :
    DashboardM H (Option UserProfile) :=
  match authorization with
  | none => return none
  | some header =>
    match headerToStr header with
    | none => throw .invalidCredentials
    | some value =>
      match (stripPrefix "Bearer ".toList value).or (stripPrefix "bearer ".toList value) with
      | none => return none
      | some rawKey =>
        if trim rawKey = [] then throw .invalidCredentials
        else do return some (← profileFromKey sha256 (String.ofList (trim rawKey)))

/-- `currentUser` is what the cookies of the request say. -/
def authenticated (sha256 : String → H) (currentUser : DashboardM H UserProfile)
    (authorization : Option (List UInt8)) : DashboardM H UserProfile := do
  match ← profileFromBearer sha256 authorization with
  | some profile => return profile
  | none => currentUser

/-! ## The routes -/

structure CreateScopeRequest where
  matchType : ScopeMatchType
  bucket : Option String
  canRead : Bool
  canWrite : Bool
  resourceType : ScopeResourceType

structure CreateKeyRequest where
  name : String
  expiresAt : Option ℕ
  scopes : List CreateScopeRequest

def CreateScopeRequest.newScope (request : CreateScopeRequest) : NewScope where
  resourceType := request.resourceType
  matchType := request.matchType
  resourceValue := request.bucket
  canRead := request.canRead
  canWrite := request.canWrite

def isBlank (text : String) : Bool := (trim text.toList).isEmpty

def validateScopeRequest (request : CreateScopeRequest) : Except AppError Unit :=
  if ¬ request.canRead ∧ ¬ request.canWrite then
    .error (.invalidInput "scope must grant read or write")
  else
    match request.resourceType with
    | .bucket =>
      if request.matchType ≠ .all ∧ request.bucket.all isBlank then
        .error (.invalidInput "bucket is required for exact or prefix scopes")
      else .ok ()
    | .control =>
      if request.matchType ≠ .all ∨ request.bucket.any (fun bucket => !isBlank bucket) then
        .error (.invalidInput "control scopes must use match_type=all with no bucket")
      else .ok ()

def ownedAccount (user : UserProfile) : DashboardM H DeveloperAccount := do
  match ← query (.getDeveloperAccount user.id) with
  | none => throw .notFound
  | some account => return account

def mutableOwnedAccount (user : UserProfile) : DashboardM H DeveloperAccount := do
  let account ← ownedAccount user
  if account.isFrozen then throw (.conflict "user account is frozen")
  else return account

def ownedApiKey (account : DeveloperAccount) (apiKeyId : Uuid) : DashboardM H (KeyRow H) := do
  match ← query (.getApiKey apiKeyId) with
  | none => throw .notFound
  | some key => if key.userId ≠ account.id then throw .notFound else return key

/-- The routes, with what their requests say and with what is drawn for them. -/
inductive DeveloperCall
  | me
  | listKeys
  | createKey (fresh : FreshKey) (request : CreateKeyRequest) (scopeIds : ℕ → Uuid)
  | revokeKey (id : Uuid)
  | rotateKey (fresh : FreshKey) (id : Uuid)
  | listScopes (id : Uuid)
  | createScope (scopeId id : Uuid) (request : CreateScopeRequest)
  | deleteScope (id : Uuid)

inductive DeveloperResponse (H : Type)
  | account (account : DeveloperAccount)
  | keys (keys : List (KeyRow H))
  | issued (issued : IssuedApiKey H)
  | scopes (scopes : List ScopeRow)
  | scope (scope : ScopeRow)
  | noContent

def DeveloperCall.route (sha256 : String → H) (user : UserProfile) :
    DeveloperCall → DashboardM H (DeveloperResponse H)
  | .me => do return .account (← ownedAccount user)
  | .listKeys => do
      let account ← ownedAccount user
      return .keys (← query (.listApiKeys account.id))
  | .createKey fresh request scopeIds => do
      let account ← mutableOwnedAccount user
      for scope in request.scopes do
        ExceptT.mk (.done (validateScopeRequest scope))
      return .issued (← issueApiKeyWithScopes sha256 fresh account.id request.name request.expiresAt
        (request.scopes.mapIdx fun i scope => (scopeIds i, scope.newScope)))
  | .revokeKey id => do
      let account ← mutableOwnedAccount user
      let _ ← ownedApiKey account id
      query (.revokeApiKey id)
      return .noContent
  | .rotateKey fresh id => do
      let account ← mutableOwnedAccount user
      let _ ← ownedApiKey account id
      return .issued (← rotateApiKey sha256 fresh id)
  | .listScopes id => do
      let account ← ownedAccount user
      let _ ← ownedApiKey account id
      return .scopes (← query (.listScopes id))
  | .createScope scopeId id request => do
      let account ← mutableOwnedAccount user
      let _ ← ownedApiKey account id
      ExceptT.mk (.done (validateScopeRequest request))
      return .scope (← query (.createScope scopeId id request.newScope))
  | .deleteScope id => do
      let account ← mutableOwnedAccount user
      match ← query (.getScope id) with
      | none => throw .notFound
      | some scope =>
        let _ ← ownedApiKey account scope.apiKeyId
        query (.deleteScope id)
        return .noContent

/-- A request with this header. -/
def DeveloperCall.program (sha256 : String → H) (currentUser : DashboardM H UserProfile)
    (authorization : Option (List UInt8)) (call : DeveloperCall) :
    DashboardM H (DeveloperResponse H) := do
  let user ← authenticated sha256 currentUser authorization
  call.route sha256 user

/-! ## What is asked of the gates -/

section Gates

variable [DecidableEq H] (sha256 : String → H) (currentUser : DashboardM H UserProfile)

/-- The header carries the key. -/
def Carries (header : List UInt8) (rawKey : String) : Prop :=
  ∃ value text, headerToStr header = some value ∧
    (stripPrefix "Bearer ".toList value).or (stripPrefix "bearer ".toList value) = some text ∧
    trim text = rawKey.toList

/-- What a header with the key comes to when no call fails. -/
def KeyTables.Admits (t : KeyTables H) (time : ℕ) (header : List UInt8) : Prop :=
  ∃ profile, ((authenticated sha256 currentUser (some header)).run.exec
    (Counted.serve fun _ => .served) (.at t time 0)).1 = .ok profile

/-- Somebody who holds keys. -/
structure Holder (H : Type) where
  tables : KeyTables H
  clock : ℕ
  keys : List String

def DeveloperResponse.keyTexts : DeveloperResponse H → List String
  | .issued key => [key.rawKey]
  | _ => []

/-- A call with one of the keys that are held; its calls to the database may fail.  A new key that
comes back is held from then on. -/
inductive Holder.Step : Holder H → Holder H → Prop
  | call {s : Holder H} {now : ℕ} {header : List UInt8} {rawKey : String} (hnow : s.clock ≤ now)
      (hkey : rawKey ∈ s.keys) (hheader : Carries header rawKey) (call : DeveloperCall)
      (fates : ℕ → Fate) (r : Except AppError (DeveloperResponse H)) (s' : Counted H)
      (hcall : (call.program sha256 currentUser (some header)).run.exec (Counted.serve fates)
        (.at s.tables now 0) = (r, s')) :
      Step s ⟨s'.stores.tables, now, s.keys ++ r.toOption.toList.flatMap DeveloperResponse.keyTexts⟩

/-- What comes of calls with a key that may do what `rights` says: keys that may do more than they
could before may not do more than that, and neither may new scopes. -/
structure KeepsWithin (t t' : KeyTables H) (rights : MachineAction → String → Prop) : Prop where
  keys : ∀ time rawKey action bucket, t'.Allowed sha256 time rawKey action bucket →
    t.Allowed sha256 time rawKey action bucket ∨ rights action bucket
  scopes : ∀ scope ∈ t'.scopes, scope ∈ t.scopes ∨ ∀ action bucket,
    scopeAllows scope.toDeveloperApiKeyScope action bucket = true → rights action bucket

/-- What is asked of the gates, for a key and the header that carries it. -/
structure GatesAgree (t : KeyTables H) (time : ℕ) (rawKey : String) (header : List UInt8) :
    Prop where
  mutating : t.Admits sha256 currentUser time header →
    ∀ bucket, t.Allowed sha256 time rawKey .writeOwnAccount bucket
  reading : ∀ bucket, t.Admits sha256 currentUser time header ↔
    t.Allowed sha256 time rawKey .readOwnAccount bucket
  noEscalation : ∀ q, Relation.ReflTransGen (Holder.Step sha256 currentUser)
    ⟨t, time, [rawKey]⟩ q →
    KeepsWithin sha256 t q.tables fun action bucket => t.Allowed sha256 time rawKey action bucket

end Gates
/-! ## When the extractor admits a key -/

section Admits

variable [DecidableEq H] {sha256 : String → H} {currentUser : DashboardM H UserProfile}

/-- The profile of a user that has not been deleted. -/
def KeyTables.profile (t : KeyTables H) (userId : Uuid) : Option UserProfile :=
  t.users.find? fun user => user.id = userId ∧ user.deletedAt = none

def KeyTables.scopesOf (t : KeyTables H) (apiKeyId : Uuid) : List ScopeRow :=
  t.scopes.filter (·.apiKeyId = apiKeyId)

/-- The key is in order, it has a control scope, and its owner a profile. -/
structure KeyTables.Passes (sha256 : String → H) (t : KeyTables H) (time : ℕ) (rawKey : String)
    (found : ApiKeyWithOwner H) (profile : UserProfile) : Prop where
  inOrder : t.InOrder sha256 time rawKey found
  control : keyHasControlScope (t.scopesOf found.apiKey.id) = true
  found : t.profile found.user.id = some profile
  unfrozen : profile.isFrozen = false

/-- A result that has left the stores as they were, and is in `P` if it is none of the errors. -/
def ReadsOnly {α : Type} (stores : Stores H) (P : α → Prop) (r : Except AppError α × Counted H) :
    Prop :=
  r.2.stores = stores ∧ ∀ a, r.1 = .ok a → P a

section ReadsOnly

variable {α β : Type} {fates : ℕ → Fate} {stores : Stores H} {n : ℕ} {P : α → Prop}

omit [DecidableEq H] in
lemma ReadsOnly.error (err : AppError) : ReadsOnly stores P (.error err, ⟨stores, n⟩) :=
  ⟨rfl, fun _ h => by cases h⟩

omit [DecidableEq H] in
lemma ReadsOnly.ok {a : α} (h : P a) : ReadsOnly stores P (.ok a, ⟨stores, n⟩) :=
  ⟨rfl, fun _ heq => Except.ok.inj heq ▸ h⟩

lemma ReadsOnly.bind {Q : β → Prop} {t : DashboardM H α} {f : α → DashboardM H β} {s : Counted H}
    (h : ReadsOnly stores P (t.run.exec (Counted.serve fates) s))
    (hf : ∀ a n, P a → ReadsOnly stores Q ((f a).run.exec (Counted.serve fates) ⟨stores, n⟩)) :
    ReadsOnly stores Q ((t >>= f).run.exec (Counted.serve fates) s) := by
  obtain ⟨hstores, hok⟩ := h
  rcases hexec : t.run.exec (Counted.serve fates) s with ⟨err | a, stores', n⟩
  · rw [hexec] at hstores
    obtain rfl : stores' = stores := hstores
    rw [Client.exec_bindExcept_error hexec]
    exact .error err
  · rw [hexec] at hstores hok
    obtain rfl : stores' = stores := hstores
    rw [Client.exec_bindExcept_ok hexec]
    exact hf a n (hok a rfl)

/-- A query that changes nothing is answered, or fails. -/
lemma readsOnly_query {q : KeyQuery H} {f : q.Row → DashboardM H α}
    (hq : (stores.tables.run stores.clock q).2 = stores.tables)
    (h : ∀ row n, (stores.tables.run stores.clock q).1 = .ok row →
      ReadsOnly stores P ((f row).run.exec (Counted.serve fates) ⟨stores, n⟩)) :
    ReadsOnly stores P ((query q >>= f).run.exec (Counted.serve fates) ⟨stores, n⟩) := by
  have hstores : { stores with tables := (stores.tables.run stores.clock q).2 } = stores := by
    rw [hq]
  rcases hfate : fates n with _ | err | err
  · have hexec := exec_query_served (s := (⟨stores, n⟩ : Counted H)) q hfate
    simp only [hstores] at hexec
    rcases hrow : (stores.tables.run stores.clock q).1 with err | row
    · rw [hrow] at hexec
      rw [Client.exec_bindExcept_error hexec]
      exact .error err
    · rw [hrow] at hexec
      rw [Client.exec_bindExcept_ok hexec]
      exact h row _ hrow
  · rw [Client.exec_bindExcept_error (exec_query_lost q hfate)]
    exact .error err
  · have hexec := exec_query_unanswered (s := (⟨stores, n⟩ : Counted H)) q hfate
    simp only [hstores] at hexec
    rw [Client.exec_bindExcept_error hexec]
    exact .error err

lemma exec_utcNow (s : Counted H) : (utcNow : DashboardM H ℕ).run.exec (Counted.serve fates) s =
    (.ok s.stores.clock, ⟨s.stores, s.calls + 1⟩) := by
  show (Except.ok (s.serve fates .utcNow).1, (s.serve fates .utcNow).2) = _
  unfold Counted.serve
  rcases fates s.calls with _ | err | err <;> rfl

variable (fates) in
lemma exec_hasExpired (apiKey : DeveloperApiKey H) (s : Counted H) :
    ∃ n, (hasExpired apiKey).run.exec (Counted.serve fates) s =
      (.ok (apiKey.expiresAt.any fun e => decide (e ≤ s.stores.clock)), ⟨s.stores, n⟩) := by
  unfold hasExpired
  rcases apiKey.expiresAt with _ | expiresAt
  · exact ⟨s.calls, rfl⟩
  · refine ⟨s.calls + 1, ?_⟩
    show (utcNow >>= fun now => pure (decide (expiresAt ≤ now))).run.exec _ s = _
    rw [Client.exec_bindExcept_ok (exec_utcNow s)]
    rfl

/-- The call is made, and what it comes to is ignored. -/
lemma readsOnly_touch {apiKeyId : Uuid} {f : Except AppError Unit → DashboardM H α}
    (h : ∀ r n, ReadsOnly stores P ((f r).run.exec (Counted.serve fates) ⟨stores, n⟩)) :
    ReadsOnly stores P ((ExceptT.lift (query (.touchApiKeyLastUsed apiKeyId)).run >>= f).run.exec
      (Counted.serve fates) ⟨stores, n⟩) := by
  have hexec : (ExceptT.lift (query (.touchApiKeyLastUsed apiKeyId)).run :
      DashboardM H (Except AppError Unit)).run.exec (Counted.serve fates) ⟨stores, n⟩ =
      (.ok (Counted.serve fates ⟨stores, n⟩ (.query (.touchApiKeyLastUsed apiKeyId))).1,
        ⟨stores, n + 1⟩) := by
    show (Except.ok (Counted.serve fates ⟨stores, n⟩ _).1,
      (Counted.serve fates ⟨stores, n⟩ _).2) = _
    unfold Counted.serve
    dsimp only
    rcases fates n with _ | err | err <;> rfl
  rw [Client.exec_bindExcept_ok hexec]
  exact h _ (n + 1)

end ReadsOnly

/-- Whatever fails, the extractor only reads, and a key that it lets in passes. -/
lemma readsOnly_profileFromKey {fates : ℕ → Fate} {stores : Stores H} {n : ℕ} {rawKey : String}
    (hraw : trim rawKey.toList ≠ []) :
    ReadsOnly stores
      (fun profile => ∃ found, stores.tables.Passes sha256 stores.clock rawKey found profile)
      ((profileFromKey sha256 rawKey).run.exec (Counted.serve fates) ⟨stores, n⟩) := by
  unfold profileFromKey
  refine readsOnly_query rfl fun row n hrow => ?_
  split
  · exact .error _
  next found =>
    have hlookup : stores.tables.db.lookupApiKeyByHash (sha256 rawKey) = some found :=
      Except.ok.inj hrow
    split
    · exact .error _
    next hrevoked =>
      obtain ⟨n, hexpired⟩ := exec_hasExpired fates found.apiKey ⟨stores, n⟩
      rw [Client.exec_bindExcept_ok hexpired]
      split
      · exact .error _
      next hunexpired =>
        split
        · exact .error _
        next hunfrozen =>
          refine readsOnly_query rfl fun scopes n hscopes => ?_
          split
          · exact .error _
          next hcontrol =>
            refine readsOnly_query rfl fun profile n hprofile => ?_
            split
            · exact .error _
            next profile =>
              split
              · exact .error _
              next hprofileFrozen =>
                refine readsOnly_touch fun _ n => ReadsOnly.ok
                  ⟨found, ⟨hraw, hlookup, ?_, ?_, ?_⟩, ?_, ?_, ?_⟩
                · simpa using hunfrozen
                · simpa using hrevoked
                · intro expiresAt hexpires
                  simpa [hexpires] using hunexpired
                · rw [KeyTables.scopesOf, Except.ok.inj hscopes]
                  exact not_not.1 hcontrol
                · exact Except.ok.inj hprofile
                · simpa using hprofileFrozen

section Served

variable {s : Counted H} {rawKey : String} {header : List UInt8}

lemma exec_query_ok {q : KeyQuery H} {row : q.Row}
    (hq : s.stores.tables.run s.stores.clock q = (.ok row, s.stores.tables)) :
    (query q).run.exec (Counted.serve fun _ => .served) s =
      (.ok row, ⟨s.stores, s.calls + 1⟩) := by
  rw [exec_query_served q rfl, hq]

/-- When nothing fails, a key that passes is let in. -/
lemma exec_profileFromKey {found : ApiKeyWithOwner H} {profile : UserProfile}
    (h : s.stores.tables.Passes sha256 s.stores.clock rawKey found profile) :
    ∃ n, (profileFromKey sha256 rawKey).run.exec (Counted.serve fun _ => .served) s =
      (.ok profile, ⟨s.stores, n⟩) := by
  obtain ⟨⟨-, hlookup, hunfrozen, hunrevoked, hunexpired⟩, hcontrol, hfound, hprofile⟩ := h
  have hexpired : (found.apiKey.expiresAt.any fun e => decide (e ≤ s.stores.clock)) = false := by
    rcases he : found.apiKey.expiresAt with _ | expiresAt
    · rfl
    · simpa using hunexpired expiresAt he
  have hlookup : (query (.lookupApiKeyByHash (sha256 rawKey))).run.exec
      (Counted.serve fun _ => .served) s = (.ok (some found), ⟨s.stores, s.calls + 1⟩) :=
    exec_query_ok (congrArg (fun row => (Except.ok row, s.stores.tables)) hlookup)
  unfold profileFromKey
  rw [Client.exec_bindExcept_ok hlookup]
  dsimp only
  rw [if_neg (show ¬ found.apiKey.revokedAt.isSome = true by simp [hunrevoked])]
  obtain ⟨n, hcheck⟩ := exec_hasExpired (fun _ => .served) found.apiKey
    (⟨s.stores, s.calls + 1⟩ : Counted H)
  rw [Client.exec_bindExcept_ok hcheck, if_neg (by rw [hexpired]; exact Bool.false_ne_true),
    if_neg (show ¬ found.user.isFrozen = true by simp [hunfrozen])]
  have hscopes : (query (.listScopes found.apiKey.id)).run.exec (Counted.serve fun _ => .served)
      ⟨s.stores, n⟩ = (.ok (s.stores.tables.scopesOf found.apiKey.id), ⟨s.stores, n + 1⟩) :=
    exec_query_ok rfl
  rw [Client.exec_bindExcept_ok hscopes, if_neg (not_not.2 hcontrol)]
  have hprofiles : (query (.getProfileById found.user.id)).run.exec
      (Counted.serve fun _ => .served) ⟨s.stores, n + 1⟩ =
        (.ok (some profile), ⟨s.stores, n + 1 + 1⟩) :=
    exec_query_ok (congrArg (fun row => (Except.ok row, s.stores.tables)) hfound)
  rw [Client.exec_bindExcept_ok hprofiles]
  dsimp only
  rw [if_neg (by simp [hprofile])]
  exact ⟨n + 1 + 1 + 1, rfl⟩

omit [DecidableEq H] in
/-- The extractor takes the key that the header carries. -/
lemma profileFromBearer_eq (h : Carries header rawKey) :
    profileFromBearer sha256 (some header) =
      if rawKey.toList = [] then throw .invalidCredentials
      else do return some (← profileFromKey sha256 rawKey) := by
  obtain ⟨value, text, hvalue, htext, htrim⟩ := h
  unfold profileFromBearer
  dsimp only
  rw [hvalue]
  dsimp only
  rw [htext]
  dsimp only
  rw [htrim, String.ofList_toList]

lemma Carries.trim (h : Carries header rawKey) (hne : rawKey.toList ≠ []) :
    Shardd.trim rawKey.toList ≠ [] := by
  obtain ⟨value, text, -, -, htrim⟩ := h
  rw [← htrim, trim_trim, htrim]
  exact hne

variable (sha256 currentUser s) in
lemma readsOnly_authenticated (fates : ℕ → Fate) (h : Carries header rawKey) :
    ReadsOnly s.stores
      (fun profile => ∃ found, s.stores.tables.Passes sha256 s.stores.clock rawKey found profile)
      ((authenticated sha256 currentUser (some header)).run.exec (Counted.serve fates) s) := by
  unfold authenticated
  rw [profileFromBearer_eq h]
  split
  · exact .error _
  next hne =>
    refine ReadsOnly.bind (ReadsOnly.bind (readsOnly_profileFromKey (h.trim hne))
      fun profile n hpasses => ReadsOnly.ok (P := fun found? => ∃ profile, found? = some profile ∧
        ∃ found, s.stores.tables.Passes sha256 s.stores.clock rawKey found profile)
        ⟨profile, rfl, hpasses⟩) fun found? n hfound => ?_
    obtain ⟨profile, rfl, hpasses⟩ := hfound
    exact ReadsOnly.ok hpasses

variable (currentUser) in
lemma exec_authenticated {found : ApiKeyWithOwner H} {profile : UserProfile}
    (h : Carries header rawKey)
    (hpasses : s.stores.tables.Passes sha256 s.stores.clock rawKey found profile) :
    ∃ n, (authenticated sha256 currentUser (some header)).run.exec
      (Counted.serve fun _ => .served) s = (.ok profile, ⟨s.stores, n⟩) := by
  have hne : rawKey.toList ≠ [] := by
    intro hnil
    refine hpasses.inOrder.nonempty ?_
    rw [hnil]
    rfl
  obtain ⟨n, hexec⟩ := exec_profileFromKey hpasses
  have hbearer : (profileFromBearer sha256 (some header)).run.exec (Counted.serve fun _ => .served)
      s = (.ok (some profile), ⟨s.stores, n⟩) := by
    rw [profileFromBearer_eq h, if_neg hne, Client.exec_bindExcept_ok hexec]
    rfl
  refine ⟨n, ?_⟩
  unfold authenticated
  rw [Client.exec_bindExcept_ok hbearer]
  rfl

/-- The extractor admits the keys that pass. -/
lemma admits_iff {t : KeyTables H} {time : ℕ} (h : Carries header rawKey) :
    t.Admits sha256 currentUser time header ↔
      ∃ found profile, t.Passes sha256 time rawKey found profile := by
  constructor
  · rintro ⟨profile, hprofile⟩
    obtain ⟨-, hpasses⟩ := readsOnly_authenticated sha256 currentUser (.at t time 0)
      (fun _ => .served) h
    obtain ⟨found, hpasses⟩ := hpasses profile hprofile
    exact ⟨found, profile, hpasses⟩
  · rintro ⟨found, profile, hpasses⟩
    obtain ⟨n, hexec⟩ := exec_authenticated currentUser (s := .at t time 0) h hpasses
    exact ⟨profile, congrArg Prod.fst hexec⟩

end Served

end Admits
/-! ## When the gates agree -/

/-- A scope that the routes can store. -/
def Storable (scope : DeveloperApiKeyScope) : Prop :=
  validateScopeRequest ⟨scope.matchType, scope.resourceValue, scope.canRead, scope.canWrite,
    scope.resourceType⟩ = .ok ()

/-- Control scopes with both rights, and scopes with both rights for every bucket. -/
structure Unlimited (scopes : List DeveloperApiKeyScope) : Prop where
  readAccount : ∃ scope ∈ scopes, scope.resourceType = .control ∧ scope.matchType = .all ∧
    scope.resourceValue = none ∧ scope.canRead = true
  writeAccount : ∃ scope ∈ scopes, scope.resourceType = .control ∧ scope.matchType = .all ∧
    scope.resourceValue = none ∧ scope.canWrite = true
  read : ∃ scope ∈ scopes, scope.resourceType = .bucket ∧ scope.matchType = .all ∧
    scope.canRead = true
  write : ∃ scope ∈ scopes, scope.resourceType = .bucket ∧ scope.matchType = .all ∧
    scope.canWrite = true

lemma scopeAllows_readOwnAccount {scope : DeveloperApiKeyScope} {bucket : String} :
    scopeAllows scope .readOwnAccount bucket = true ↔ scope.resourceType = .control ∧
      scope.matchType = .all ∧ scope.resourceValue = none ∧ scope.canRead = true := by
  simp only [scopeAllows, MachineAction.isOwnAccount]
  by_cases hread : scope.canRead = true <;> simp [hread, and_assoc]

lemma scopeAllows_writeOwnAccount {scope : DeveloperApiKeyScope} {bucket : String} :
    scopeAllows scope .writeOwnAccount bucket = true ↔ scope.resourceType = .control ∧
      scope.matchType = .all ∧ scope.resourceValue = none ∧ scope.canWrite = true := by
  simp only [scopeAllows, MachineAction.isOwnAccount]
  by_cases hwrite : scope.canWrite = true <;> simp [hwrite, and_assoc]

/-- Only a scope for all buckets covers the bucket without a name. -/
lemma Storable.all_of_covers {scope : DeveloperApiKeyScope} (h : Storable scope)
    (hbucket : scope.resourceType = .bucket)
    (hcovers : (match scope.matchType with
      | .all => true
      | .exact => scope.resourceValue == some ""
      | .withPrefix => scope.resourceValue.any fun value =>
          value.toList.isPrefixOf "".toList) = true) : scope.matchType = .all := by
  by_contra hne
  have hblank : scope.resourceValue.all isBlank = false := by
    unfold Storable validateScopeRequest at h
    split at h
    · cases h
    · simp only [hbucket] at h
      split at h
      · cases h
      next hvalid =>
        by_contra hall
        exact hvalid ⟨hne, by simpa using hall⟩
  have hempty : scope.resourceValue = some "" := by
    rcases hmatch : scope.matchType with _ | _ | _
    · exact absurd hmatch hne
    · simpa [hmatch] using hcovers
    · rw [hmatch] at hcovers
      rcases hvalue : scope.resourceValue with _ | value
      · rw [hvalue] at hcovers
        cases hcovers
      · rw [hvalue] at hcovers
        have hnil : value.toList = [] := by simpa using hcovers
        rw [← String.ofList_toList (s := value), hnil]
  rw [hempty] at hblank
  cases hblank

lemma scopeAllows_read_unnamed {scope : DeveloperApiKeyScope} (h : Storable scope)
    (hallows : scopeAllows scope .read "" = true) :
    scope.resourceType = .bucket ∧ scope.matchType = .all ∧ scope.canRead = true := by
  unfold scopeAllows at hallows
  dsimp only at hallows
  split at hallows
  · cases hallows
  next hread =>
    rw [if_neg (by decide)] at hallows
    split at hallows
    · cases hallows
    next hbucket =>
      exact ⟨not_not.1 hbucket, h.all_of_covers (not_not.1 hbucket) hallows, by simpa using hread⟩

lemma scopeAllows_write_unnamed {scope : DeveloperApiKeyScope} (h : Storable scope)
    (hallows : scopeAllows scope .write "" = true) :
    scope.resourceType = .bucket ∧ scope.matchType = .all ∧ scope.canWrite = true := by
  unfold scopeAllows at hallows
  dsimp only at hallows
  split at hallows
  · cases hallows
  next hwrite =>
    rw [if_neg (by decide)] at hallows
    split at hallows
    · cases hallows
    next hbucket =>
      exact ⟨not_not.1 hbucket, h.all_of_covers (not_not.1 hbucket) hallows, by simpa using hwrite⟩

lemma Unlimited.allows {scopes : List DeveloperApiKeyScope} (h : Unlimited scopes)
    (action : MachineAction) (bucket : String) :
    ∃ scope ∈ scopes, scopeAllows scope action bucket = true := by
  cases action with
  | read =>
      obtain ⟨scope, hscope, htype, hall, hread⟩ := h.read
      exact ⟨scope, hscope, by simp [scopeAllows, htype, hall, hread, MachineAction.isOwnAccount]⟩
  | write =>
      obtain ⟨scope, hscope, htype, hall, hwrite⟩ := h.write
      exact ⟨scope, hscope, by simp [scopeAllows, htype, hall, hwrite, MachineAction.isOwnAccount]⟩
  | readOwnAccount =>
      obtain ⟨scope, hscope, hallows⟩ := h.readAccount
      exact ⟨scope, hscope, scopeAllows_readOwnAccount.2 hallows⟩
  | writeOwnAccount =>
      obtain ⟨scope, hscope, hallows⟩ := h.writeAccount
      exact ⟨scope, hscope, scopeAllows_writeOwnAccount.2 hallows⟩

section Agree

variable [DecidableEq H] {sha256 : String → H} {currentUser : DashboardM H UserProfile}
  {t : KeyTables H} {time : ℕ} {rawKey : String} {header : List UInt8}
  {found : ApiKeyWithOwner H} {profile : UserProfile}

/-- When the gates agree about a key: a key that is in order and has a control scope has control
scopes without a value for both rights, and scopes for all buckets for both; and a key in order
whose owner has been deleted has no control scope to read with. -/
structure GateSafe (sha256 : String → H) (t : KeyTables H) (time : ℕ) (rawKey : String) : Prop where
  live : ∀ found, t.InOrder sha256 time rawKey found → (t.profile found.user.id).isSome →
    keyHasControlScope (t.scopesOf found.apiKey.id) = true →
    Unlimited (t.db.listScopes found.apiKey.id)
  deleted : ∀ found, t.InOrder sha256 time rawKey found → t.profile found.user.id = none →
    ∀ scope ∈ t.scopesOf found.apiKey.id, ¬ (scope.resourceType = .control ∧
      scope.matchType = .all ∧ scope.resourceValue = none ∧ scope.canRead = true)

omit [DecidableEq H] in
lemma KeyTables.listScopes_eq (t : KeyTables H) (apiKeyId : Uuid) :
    t.db.listScopes apiKeyId = (t.scopesOf apiKeyId).map ScopeRow.toDeveloperApiKeyScope := by
  show (t.scopes.map _).filter _ = (t.scopes.filter _).map _
  rw [List.filter_map]
  rfl

/-- What a key is found with, it was found with before. -/
lemma KeyTables.InOrder.earlier {now : ℕ} (h : t.InOrder sha256 now rawKey found)
    (hle : time ≤ now) : t.InOrder sha256 time rawKey found where
  nonempty := h.nonempty
  lookup := h.lookup
  unfrozen := h.unfrozen
  unrevoked := h.unrevoked
  unexpired expiresAt hexpires := hle.trans_lt (h.unexpired expiresAt hexpires)

lemma KeyTables.InOrder.eq {found' : ApiKeyWithOwner H} (h : t.InOrder sha256 time rawKey found)
    (h' : t.InOrder sha256 time rawKey found') : found = found' :=
  Option.some.inj (h.lookup.symm.trans h'.lookup)

/-- The rows behind a key that is in order. -/
lemma KeyTables.InOrder.rows (h : t.InOrder sha256 time rawKey found) :
    (∃ key ∈ t.apiKeys, key.toDeveloperApiKey = found.apiKey) ∧
      (∃ user ∈ t.users, user.toDeveloperAccount = found.user) ∧
      found.user.id = found.apiKey.userId := by
  obtain ⟨apiKey, hkey, hfound⟩ := Option.bind_eq_some_iff.1 h.lookup
  obtain ⟨user, huser, hfound⟩ := Option.bind_eq_some_iff.1 hfound
  obtain rfl := Option.some.inj hfound
  exact ⟨List.mem_map.1 (List.mem_of_find?_eq_some hkey),
    List.mem_map.1 (List.mem_of_find?_eq_some huser), by simpa using List.find?_some huser⟩

lemma KeyTables.InOrder.profile_eq (hwf : t.WellFormed) (h : t.InOrder sha256 time rawKey found)
    (hprofile : t.profile found.user.id = some profile) :
    profile ∈ t.users ∧ profile.toDeveloperAccount = found.user := by
  obtain ⟨-, ⟨user, huser, huserEq⟩, -⟩ := h.rows
  have hmem : profile ∈ t.users := List.mem_of_find?_eq_some hprofile
  have hid : profile.id = found.user.id ∧ profile.deletedAt = none := by
    simpa using List.find?_some hprofile
  have heq : profile = user := by
    refine List.inj_on_of_nodup_map hwf.users hmem huser ?_
    rw [hid.1, ← huserEq]
  exact ⟨hmem, heq ▸ huserEq⟩

/-- A key in order with a control scope and a profile is let in. -/
lemma KeyTables.InOrder.passes (hwf : t.WellFormed) (h : t.InOrder sha256 time rawKey found)
    (hcontrol : keyHasControlScope (t.scopesOf found.apiKey.id) = true)
    (hprofile : t.profile found.user.id = some profile) :
    t.Passes sha256 time rawKey found profile := by
  obtain ⟨-, heq⟩ := h.profile_eq hwf hprofile
  exact ⟨h, hcontrol, hprofile, (congrArg DeveloperAccount.isFrozen heq).trans h.unfrozen⟩

lemma GateSafe.allowed (h : GateSafe sha256 t time rawKey)
    (hpasses : t.Passes sha256 time rawKey found profile) (action : MachineAction)
    (bucket : String) : t.Allowed sha256 time rawKey action bucket := by
  have hunlimited : Unlimited (t.db.listScopes found.apiKey.id) :=
    h.live found hpasses.inOrder (hpasses.found ▸ rfl) hpasses.control
  obtain ⟨scope, hscope, hallows⟩ := hunlimited.allows action bucket
  exact hpasses.inOrder.allowed hscope hallows

/-- A key that may read the account has a control scope. -/
lemma readScope_of_allowed {bucket : String}
    (h : t.Allowed sha256 time rawKey .readOwnAccount bucket) :
    ∃ found, t.InOrder sha256 time rawKey found ∧ ∃ scope ∈ t.scopesOf found.apiKey.id,
      scope.resourceType = .control ∧ scope.matchType = .all ∧ scope.resourceValue = none ∧
        scope.canRead = true := by
  obtain ⟨found, horder, scope, hscope, hallows⟩ := allowed_iff.1 h
  rw [KeyTables.listScopes_eq] at hscope
  obtain ⟨row, hrow, rfl⟩ := List.mem_map.1 hscope
  exact ⟨found, horder, row, hrow, scopeAllows_readOwnAccount.1 hallows⟩

lemma GateSafe.admits (hwf : t.WellFormed) (h : GateSafe sha256 t time rawKey)
    (hheader : Carries header rawKey) {bucket : String}
    (hallowed : t.Allowed sha256 time rawKey .readOwnAccount bucket) :
    t.Admits sha256 currentUser time header := by
  obtain ⟨found, horder, scope, hscope, hread⟩ := readScope_of_allowed hallowed
  have hcontrol : keyHasControlScope (t.scopesOf found.apiKey.id) = true :=
    List.any_eq_true.2 ⟨scope, hscope, by simp [hread.1, hread.2.2.2]⟩
  rcases hprofile : t.profile found.user.id with _ | profile
  · exact absurd hread (h.deleted found horder hprofile scope hscope)
  · exact (admits_iff hheader).2 ⟨found, profile, horder.passes hwf hcontrol hprofile⟩

/-- A key that is not let in changes nothing and gets no key. -/
lemma Holder.Step.unchanged {s s' : Holder H}
    (hadmits : ∀ found profile, ¬ t.Passes sha256 time rawKey found profile)
    (hs : s.tables = t ∧ time ≤ s.clock ∧ s.keys = [rawKey])
    (h : Holder.Step sha256 currentUser s s') :
    s'.tables = t ∧ time ≤ s'.clock ∧ s'.keys = [rawKey] := by
  obtain ⟨htables, hle, hkeys⟩ := hs
  cases h with
  | @call now header key hnow hkey hheader call fates r s₁ hcall =>
      rw [hkeys] at hkey
      obtain rfl := List.mem_singleton.1 hkey
      rw [htables] at hcall
      obtain ⟨hstores, hok⟩ := readsOnly_authenticated sha256 currentUser (.at t now 0) fates
        hheader
      rcases hauth : (authenticated sha256 currentUser (some header)).run.exec
        (Counted.serve fates) (.at t now 0) with ⟨err | user, s₂⟩
      · have hexec : (call.program sha256 currentUser (some header)).run.exec
            (Counted.serve fates) (.at t now 0) = (.error err, s₂) :=
          Client.exec_bindExcept_error hauth
        obtain ⟨rfl, rfl⟩ := Prod.mk.inj (hcall.symm.trans hexec)
        rw [hauth] at hstores
        exact ⟨congrArg Stores.tables hstores, hle.trans hnow, by rw [hkeys]; rfl⟩
      · obtain ⟨found, hpasses⟩ := hok user (congrArg Prod.fst hauth)
        exact absurd ⟨hpasses.inOrder.earlier (hle.trans hnow), hpasses.control, hpasses.found,
          hpasses.unfrozen⟩ (hadmits found user)

lemma GateSafe.agree (hwf : t.WellFormed) (h : GateSafe sha256 t time rawKey)
    (hheader : Carries header rawKey) :
    GatesAgree sha256 currentUser t time rawKey header := by
  refine ⟨fun hadmits bucket => ?_, fun bucket => ⟨fun hadmits => ?_, h.admits hwf hheader⟩,
    fun q hrun => ?_⟩
  · obtain ⟨found, profile, hpasses⟩ := (admits_iff hheader).1 hadmits
    exact h.allowed hpasses .writeOwnAccount bucket
  · obtain ⟨found, profile, hpasses⟩ := (admits_iff hheader).1 hadmits
    exact h.allowed hpasses .readOwnAccount bucket
  by_cases hpasses : ∃ found profile, t.Passes sha256 time rawKey found profile
  · -- the key may do everything
    obtain ⟨found, profile, hpasses⟩ := hpasses
    exact ⟨fun _ _ action bucket _ => .inr (h.allowed hpasses action bucket),
      fun _ _ => .inr fun action bucket _ => h.allowed hpasses action bucket⟩
  · have hnot : ∀ found profile, ¬ t.Passes sha256 time rawKey found profile :=
      fun found profile hp => hpasses ⟨found, profile, hp⟩
    have hq : q.tables = t ∧ time ≤ q.clock ∧ q.keys = [rawKey] := by
      induction hrun with
      | refl => exact ⟨rfl, le_rfl, rfl⟩
      | tail _ hstep ih => exact hstep.unchanged hnot ih
    rw [hq.1]
    exact ⟨fun _ _ _ _ hallowed => .inl hallowed, fun _ hscope => .inl hscope⟩

/-- A scope for everything, which a key asks for on itself. -/
def everything : CreateScopeRequest where
  matchType := .all
  bucket := none
  canRead := true
  canWrite := true
  resourceType := .bucket

/-- A key that is let in gets the scope. -/
lemma exec_createScope (currentUser : DashboardM H UserProfile) (hwf : t.WellFormed)
    (hheader : Carries header rawKey) (hpasses : t.Passes sha256 time rawKey found profile)
    {scopeId : Uuid}
    (hfree : ∀ scope ∈ t.scopes, scope.id ≠ scopeId) :
    ∃ r s', ((DeveloperCall.createScope scopeId found.apiKey.id everything).program sha256
      currentUser (some header)).run.exec (Counted.serve fun _ => .served) (.at t time 0) =
        (.ok (.scope r), s') ∧ s'.stores.tables =
          { t with scopes := t.scopes ++ [everything.newScope.row scopeId found.apiKey.id] } := by
  obtain ⟨⟨key, hkey, hkeyEq⟩, -, howner⟩ := hpasses.inOrder.rows
  obtain ⟨hprofile, hprofileEq⟩ := hpasses.inOrder.profile_eq hwf hpasses.found
  have hid : profile.id = found.user.id := congrArg DeveloperAccount.id hprofileEq
  have hkeyId : key.id = found.apiKey.id := congrArg DeveloperApiKey.id hkeyEq
  obtain ⟨n, hauth⟩ : ∃ n, (authenticated sha256 currentUser (some header)).run.exec
      (Counted.serve fun _ => .served) (.at t time 0) =
        (.ok profile, ⟨⟨t, fun _ => none, time⟩, n⟩) :=
    exec_authenticated currentUser (s := .at t time 0) hheader hpasses
  have haccount : (mutableOwnedAccount profile).run.exec (Counted.serve fun _ => .served)
      ⟨⟨t, fun _ => none, time⟩, n⟩ =
        (.ok profile.toDeveloperAccount, ⟨⟨t, fun _ => none, time⟩, n + 1⟩) := by
    have hread : (query (.getDeveloperAccount profile.id)).run.exec (Counted.serve fun _ => .served)
        ⟨⟨t, fun _ => none, time⟩, n⟩ =
          (.ok (some profile.toDeveloperAccount), ⟨⟨t, fun _ => none, time⟩, n + 1⟩) := by
      refine exec_query_ok ?_
      show (Except.ok ((t.users.find? (·.id = profile.id)).map _), t) = _
      rw [Postgres.find?_eq_some_of_nodup hwf.users hprofile rfl]
      rfl
    have howned : (ownedAccount profile).run.exec (Counted.serve fun _ => .served)
        ⟨⟨t, fun _ => none, time⟩, n⟩ =
          (.ok profile.toDeveloperAccount, ⟨⟨t, fun _ => none, time⟩, n + 1⟩) :=
      Client.exec_bindExcept_ok hread
    unfold mutableOwnedAccount
    rw [Client.exec_bindExcept_ok howned, if_neg (by simp [hpasses.unfrozen])]
    rfl
  have howned : (ownedApiKey profile.toDeveloperAccount found.apiKey.id).run.exec
      (Counted.serve fun _ => .served) ⟨⟨t, fun _ => none, time⟩, n + 1⟩ =
        (.ok key, ⟨⟨t, fun _ => none, time⟩, n + 1 + 1⟩) := by
    have hread : (query (.getApiKey found.apiKey.id)).run.exec (Counted.serve fun _ => .served)
        ⟨⟨t, fun _ => none, time⟩, n + 1⟩ =
          (.ok (some key), ⟨⟨t, fun _ => none, time⟩, n + 1 + 1⟩) := by
      refine exec_query_ok ?_
      show (Except.ok (t.apiKeys.find? (·.id = found.apiKey.id)), t) = _
      rw [Postgres.find?_eq_some_of_nodup hwf.ids hkey hkeyId]
    have huser : ¬ key.userId ≠ profile.id := by
      rw [not_not, hid, howner]
      exact congrArg DeveloperApiKey.userId hkeyEq
    unfold ownedApiKey
    rw [Client.exec_bindExcept_ok hread]
    dsimp only
    rw [if_neg huser]
    rfl
  have hcreate : t.run time (.createScope scopeId found.apiKey.id everything.newScope) =
      (.ok (everything.newScope.row scopeId found.apiKey.id),
        { t with scopes := t.scopes ++ [everything.newScope.row scopeId found.apiKey.id] }) := by
    have hnew : ¬ ∃ row ∈ t.scopes, row.id = scopeId :=
      fun ⟨row, hrow, heq⟩ => hfree row hrow heq
    have hexists : ¬ ∀ key ∈ t.apiKeys, key.id ≠ found.apiKey.id := fun hall => hall key hkey hkeyId
    unfold KeyTables.run
    dsimp only
    rw [if_neg hnew, if_neg hexists]
  have hvalid : (ExceptT.mk (.done (validateScopeRequest everything)) :
      DashboardM H Unit).run.exec (Counted.serve fun _ => .served)
        ⟨⟨t, fun _ => none, time⟩, n + 1 + 1⟩ =
          (.ok (), ⟨⟨t, fun _ => none, time⟩, n + 1 + 1⟩) := rfl
  have hstored : (query (.createScope scopeId found.apiKey.id everything.newScope)).run.exec
      (Counted.serve fun _ => .served) ⟨⟨t, fun _ => none, time⟩, n + 1 + 1⟩ = _ :=
    exec_query_served _ rfl
  simp only [hcreate] at hstored
  refine ⟨everything.newScope.row scopeId found.apiKey.id, ⟨⟨{ t with scopes := t.scopes ++
    [everything.newScope.row scopeId found.apiKey.id] }, fun _ => none, time⟩, n + 1 + 1 + 1⟩,
    ?_, rfl⟩
  unfold DeveloperCall.program
  rw [Client.exec_bindExcept_ok hauth]
  unfold DeveloperCall.route
  dsimp only
  rw [Client.exec_bindExcept_ok haccount, Client.exec_bindExcept_ok howned,
    Client.exec_bindExcept_ok hvalid, Client.exec_bindExcept_ok hstored]
  rfl

lemma GatesAgree.safe (hwf : t.WellFormed)
    (hstored : ∀ scope ∈ t.scopes, Storable scope.toDeveloperApiKeyScope) {scopeId : Uuid}
    (hfree : ∀ scope ∈ t.scopes, scope.id ≠ scopeId) (hheader : Carries header rawKey)
    (h : GatesAgree sha256 currentUser t time rawKey header) : GateSafe sha256 t time rawKey := by
  have hstorable : ∀ apiKeyId, ∀ scope ∈ t.db.listScopes apiKeyId, Storable scope := by
    intro apiKeyId scope hscope
    rw [KeyTables.listScopes_eq] at hscope
    obtain ⟨row, hrow, rfl⟩ := List.mem_map.1 hscope
    exact hstored row (List.mem_filter.1 hrow).1
  constructor
  · intro found horder hprofile hcontrol
    obtain ⟨profile, hprofile⟩ := Option.isSome_iff_exists.1 hprofile
    have hpasses := horder.passes hwf hcontrol hprofile
    have hadmits : t.Admits sha256 currentUser time header :=
      (admits_iff hheader).2 ⟨found, profile, hpasses⟩
    have hof : ∀ {action bucket}, t.Allowed sha256 time rawKey action bucket →
        ∃ scope ∈ t.db.listScopes found.apiKey.id, scopeAllows scope action bucket = true := by
      intro action bucket hallowed
      obtain ⟨found', horder', hscope⟩ := allowed_iff.1 hallowed
      rwa [horder'.eq horder] at hscope
    -- the key may do what the scope allows that it has asked for
    have hrights : ∀ action bucket, scopeAllows (everything.newScope.row scopeId
        found.apiKey.id).toDeveloperApiKeyScope action bucket = true →
        t.Allowed sha256 time rawKey action bucket := by
      obtain ⟨r, s', hexec, htables⟩ := exec_createScope currentUser hwf hheader hpasses hfree
      have hstep : Holder.Step sha256 currentUser ⟨t, time, [rawKey]⟩ _ :=
        .call le_rfl (List.mem_singleton_self _) hheader _ _ _ _ hexec
      have hkeeps := (h.noEscalation _ (.single hstep)).scopes
        (everything.newScope.row scopeId found.apiKey.id)
      have hmem : everything.newScope.row scopeId found.apiKey.id ∈ s'.stores.tables.scopes := by
        rw [htables]
        exact List.mem_append_right _ (List.mem_singleton_self _)
      exact (hkeeps hmem).resolve_left fun hold => hfree _ hold rfl
    obtain ⟨readAccount, hreadAccount, hread⟩ := hof ((h.reading "").1 hadmits)
    obtain ⟨writeAccount, hwriteAccount, hwrite⟩ := hof (h.mutating hadmits "")
    obtain ⟨reads, hreads, hreadsAllows⟩ := hof (hrights .read "" rfl)
    obtain ⟨writes, hwrites, hwritesAllows⟩ := hof (hrights .write "" rfl)
    exact ⟨⟨readAccount, hreadAccount, scopeAllows_readOwnAccount.1 hread⟩,
      ⟨writeAccount, hwriteAccount, scopeAllows_writeOwnAccount.1 hwrite⟩,
      ⟨reads, hreads, scopeAllows_read_unnamed (hstorable _ reads hreads) hreadsAllows⟩,
      ⟨writes, hwrites, scopeAllows_write_unnamed (hstorable _ writes hwrites) hwritesAllows⟩⟩
  · intro found horder hdeleted scope hscope hread
    have hallowed : t.Allowed sha256 time rawKey .readOwnAccount "" := by
      have hlisted : scope.toDeveloperApiKeyScope ∈ t.db.listScopes found.apiKey.id := by
        rw [KeyTables.listScopes_eq]
        exact List.mem_map_of_mem hscope
      exact horder.allowed hlisted (scopeAllows_readOwnAccount.2 hread)
    obtain ⟨found', profile, hpasses⟩ := (admits_iff hheader).1 ((h.reading "").2 hallowed)
    have hfound := hpasses.found
    rw [hpasses.inOrder.eq horder, hdeleted] at hfound
    cases hfound

/-- **The two gates.**  The extractor and introspection agree about a key, and nothing that is done
with it leads to more rights than it has, exactly when the key is safe. -/
theorem gatesAgree_iff (hwf : t.WellFormed)
    (hstored : ∀ scope ∈ t.scopes, Storable scope.toDeveloperApiKeyScope) {scopeId : Uuid}
    (hfree : ∀ scope ∈ t.scopes, scope.id ≠ scopeId) (hheader : Carries header rawKey) :
    GatesAgree sha256 currentUser t time rawKey header ↔ GateSafe sha256 t time rawKey :=
  ⟨fun h => h.safe hwf hstored hfree hheader, fun h => h.agree hwf hheader⟩

end Agree

/-! ## A key of the command line, and a key that may look -/

section Examples

def bearer (rawKey : String) : List UInt8 :=
  ("Bearer " ++ rawKey).toList.map fun c => UInt8.ofNat c.toNat

def cliScopeId : Uuid := ⟨List.replicate 16 33, rfl⟩

def controlScopeId : Uuid := ⟨List.replicate 16 34, rfl⟩

def unusedId : Uuid := ⟨List.replicate 16 35, rfl⟩

/-- The user has one key, with these scopes. -/
def scopedTables (scopes : List (Uuid × NewScope)) : KeyTables String where
  users := readerTables.users
  apiKeys := [readerKey]
  scopes := scopes.map fun scope => scope.2.row scope.1 readerKeyId

lemma scopedTables_wellFormed (scopes : List (Uuid × NewScope)) :
    (scopedTables scopes).WellFormed where
  users := List.nodup_singleton _
  ids := List.nodup_singleton _
  hashes := List.nodup_singleton _
  scopes scope hscope := by
    obtain ⟨drawn, -, rfl⟩ := List.mem_map.1 hscope
    exact ⟨readerKey, List.mem_singleton_self _, rfl⟩

lemma scopedTables_inOrder (scopes : List (Uuid × NewScope)) :
    (scopedTables scopes).InOrder id 1000 "sk_live_old"
      ⟨readerKey.toDeveloperApiKey, readerId, false⟩ where
  nonempty := by decide
  lookup := rfl
  unfrozen := rfl
  unrevoked := rfl
  unexpired _ h := by cases h

/-- The gates agree about a key with the scopes of the command line. -/
theorem gatesAgree_iff_cli :
    let t := scopedTables [(cliScopeId, ⟨.bucket, .all, none, true, true⟩),
      (controlScopeId, ⟨.control, .all, none, true, true⟩)]
    GatesAgree id (throw .invalidCredentials) t 1000 "sk_live_old" (bearer "sk_live_old") := by
  intro t
  have hstored : ∀ scope ∈ t.scopes, Storable scope.toDeveloperApiKeyScope := by
    intro scope hscope
    rcases List.mem_cons.1 hscope with rfl | hscope
    · rfl
    · obtain rfl := List.mem_singleton.1 hscope
      rfl
  have hfree : ∀ scope ∈ t.scopes, scope.id ≠ unusedId := by decide
  refine (gatesAgree_iff (scopedTables_wellFormed _) hstored hfree
    ⟨_, _, rfl, rfl, rfl⟩).2 ⟨fun found horder _ _ => ?_, fun found horder hprofile => ?_⟩
  · obtain rfl := horder.eq (scopedTables_inOrder _)
    exact ⟨by decide, by decide, by decide, by decide⟩
  · obtain rfl := horder.eq (scopedTables_inOrder _)
    cases hprofile

/-- A key with one scope, to read the account, is let in to change it as well. -/
theorem not_gatesAgree_readOnly :
    let t := scopedTables [(controlScopeId, ⟨.control, .all, none, true, false⟩)]
    (∀ scope ∈ t.scopes, Storable scope.toDeveloperApiKeyScope) ∧
      t.Admits id (throw .invalidCredentials) 1000 (bearer "sk_live_old") ∧
      (∀ bucket, ¬ t.Allowed id 1000 "sk_live_old" .writeOwnAccount bucket) ∧
      ¬ GatesAgree id (throw .invalidCredentials) t 1000 "sk_live_old" (bearer "sk_live_old") := by
  intro t
  have hadmits : t.Admits id (throw .invalidCredentials) 1000 (bearer "sk_live_old") :=
    (admits_iff ⟨_, _, rfl, rfl, rfl⟩).2 ⟨_, _, scopedTables_inOrder _, rfl, rfl, rfl⟩
  have hdenied : ∀ bucket, ¬ t.Allowed id 1000 "sk_live_old" .writeOwnAccount bucket := by
    intro bucket hallowed
    obtain ⟨found, horder, scope, hscope, hallows⟩ := allowed_iff.1 hallowed
    obtain rfl := horder.eq (scopedTables_inOrder _)
    obtain rfl := List.mem_singleton.1 hscope
    cases hallows
  have hstored : ∀ scope ∈ t.scopes, Storable scope.toDeveloperApiKeyScope := fun scope hscope => by
    obtain rfl := List.mem_singleton.1 hscope
    rfl
  exact ⟨hstored, hadmits, hdenied, fun h => hdenied "main" (h.mutating hadmits "main")⟩

end Examples

end Shardd.Dashboard
