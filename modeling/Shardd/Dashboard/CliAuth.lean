import Shardd.Dashboard.Keys

/-!
# The command-line login (`apps/dashboard/src/application/use_cases/cli_auth.rs`)

A command line opens a session; in the browser a user authorizes it and is shown a code; with the
code the command line gets a key.  Both `authorize` and `exchange` read the session, check it, act
and write it back or delete it in calls of their own, so a session that two callers read is used
twice.
-/

namespace Shardd.Dashboard

variable {H : Type}

/-! ## The use cases -/

structure CliAuthStartResponse where
  sessionId : String
  verificationUri : String
  expiresAt : ℕ

structure CliAuthAuthorizeResponse where
  verificationCode : String
  clientName : String
  hostname : String

structure CliAuthExchangeResponse where
  apiKey : String
  keyId : Uuid
  userId : Uuid
  email : String

/-- In microseconds. -/
def sessionTtl : ℕ := 600000000

def clampText (s : String) (max : ℕ) : String := String.ofList (s.toList.take max)

/-- A session as `start` puts it; its id is drawn. -/
def newSession (sessionId clientName hostname : String) (now : ℕ) : CliAuthSession H where
  sessionId := sessionId
  status := .pending
  clientName := clampText clientName 80
  hostname := clampText hostname 80
  startedAt := now
  expiresAt := now + sessionTtl
  userId := none
  verificationCodeHash := none
  authorizedAt := none

def start (appOrigin sessionId clientName hostname : String) :
    DashboardM H CliAuthStartResponse := do
  let now ← utcNow
  let session := newSession sessionId clientName hostname now
  putSession session
  return {
    sessionId := sessionId
    verificationUri := String.ofList (appOrigin.toList.rdropWhile (· = '/')) ++
      "/cli-authorize?session=" ++ sessionId
    expiresAt := session.expiresAt }

/-- When `start` is answered, whatever has become of its calls, the session is in the store. -/
lemma sessions_start [DecidableEq H] {fates : ℕ → Fate} {s s' : Counted H}
    {appOrigin sessionId clientName hostname : String} {response : CliAuthStartResponse}
    (h : (start appOrigin sessionId clientName hostname).run.exec (Counted.serve fates) s =
      (.ok response, s')) :
    s'.stores.sessions response.sessionId =
        some (newSession response.sessionId clientName hostname s.stores.clock) ∧
      response.expiresAt = s.stores.clock + sessionTtl := by
  obtain ⟨now, s₁, hnow, hrest⟩ := Client.exec_bindExcept_eq_ok h
  obtain ⟨_, s₂, hput, hdone⟩ := Client.exec_bindExcept_eq_ok hrest
  have hclock : s.serve fates .utcNow = (s.stores.clock, ⟨s.stores, s.calls + 1⟩) := by
    unfold Counted.serve
    cases fates s.calls <;> rfl
  have hread : (utcNow (H := H)).run.exec (Counted.serve fates) s =
      (.ok (s.serve fates .utcNow).1, (s.serve fates .utcNow).2) := rfl
  rw [hread, hclock] at hnow
  cases hnow
  have hput : Counted.serve fates ⟨s.stores, s.calls + 1⟩
      (.putSession (newSession sessionId clientName hostname s.stores.clock)) =
        (.ok (), s₂) := hput
  cases hdone
  unfold Counted.serve at hput
  dsimp only at hput
  cases hfate : fates (s.calls + 1) with
  | served =>
      rw [hfate] at hput
      cases hput
      exact ⟨Map.insert_self .., rfl⟩
  | lost err =>
      rw [hfate] at hput
      cases hput
  | unanswered err =>
      rw [hfate] at hput
      cases hput

variable [DecidableEq H] (sha256 : String → H)

def authorizeSession (code : String) (userId : Uuid) (session : CliAuthSession H) :
    DashboardM H CliAuthAuthorizeResponse := do
  if session.status ≠ .pending then
    throw (.conflict "cli auth session already used or in wrong state")
  else if session.expiresAt ≤ (← utcNow) then throw (.conflict "cli auth session expired")
  else
    let authorizedAt ← utcNow
    putSession { session with
      status := .authorized
      userId := some userId
      verificationCodeHash := some (sha256 code)
      authorizedAt := some authorizedAt }
    return ⟨code, session.clientName, session.hostname⟩

/-- The verification code is drawn. -/
def authorize (code : String) (userId : Uuid) (sessionId : String) :
    DashboardM H CliAuthAuthorizeResponse := do
  match ← getSession sessionId with
  | none => throw .notFound
  | some session => authorizeSession sha256 code userId session

/-- The key may do everything, to the buckets and to the account. -/
def cliScopes (scopeIds : Uuid × Uuid) : List (Uuid × NewScope) :=
  [(scopeIds.1, ⟨.bucket, .all, none, true, true⟩),
    (scopeIds.2, ⟨.control, .all, none, true, true⟩)]

def cliKeyName (hostname sessionId : String) : String :=
  "cli/" ++ hostname ++ "/" ++ clampText sessionId 6

def mintKey (fresh : FreshKey) (scopeIds : Uuid × Uuid) (sessionId : String) (userId : Uuid)
    (session : CliAuthSession H) : DashboardM H CliAuthExchangeResponse := do
  let issued ← issueApiKeyWithScopes sha256 fresh userId (cliKeyName session.hostname sessionId)
    none (cliScopes scopeIds)
  deleteSession sessionId
  match ← query (.getProfileById userId) with
  | none => throw .invalidCredentials
  | some profile => return ⟨issued.rawKey, issued.apiKey.id, userId, profile.email⟩

def exchangeSession (fresh : FreshKey) (scopeIds : Uuid × Uuid) (sessionId code : String)
    (session : CliAuthSession H) : DashboardM H CliAuthExchangeResponse := do
  if session.status ≠ .authorized then throw (.conflict "cli auth session not yet authorized")
  else if session.expiresAt ≤ (← utcNow) then throw (.conflict "cli auth session expired")
  else
    match session.verificationCodeHash with
    | none => throw (.internal "authorized session missing code hash")
    | some expectedHash =>
      if expectedHash ≠ sha256 (String.ofList (trim code.toList)) then throw .invalidCredentials
      else
        match session.userId with
        | none => throw (.internal "authorized session missing user_id")
        | some userId => mintKey sha256 fresh scopeIds sessionId userId session

def exchange (fresh : FreshKey) (scopeIds : Uuid × Uuid) (sessionId code : String) :
    DashboardM H CliAuthExchangeResponse := do
  match ← getSession sessionId with
  | none => throw .notFound
  | some session => exchangeSession sha256 fresh scopeIds sessionId code session

/-! ## One session -/

/-- A request about the session, with what is drawn for it. -/
inductive LoginCall
  | authorize (userId : Uuid) (code : String)
  | exchange (fresh : FreshKey) (scopeIds : Uuid × Uuid) (code : String)

inductive LoginResponse
  | authorized (response : CliAuthAuthorizeResponse)
  | exchanged (response : CliAuthExchangeResponse)

def LoginCall.program (sessionId : String) : LoginCall → DashboardM H LoginResponse
  | .authorize userId code => do
      return .authorized (← Dashboard.authorize sha256 code userId sessionId)
  | .exchange fresh scopeIds code => do
      return .exchanged (← Dashboard.exchange sha256 fresh scopeIds sessionId code)

/-- The stores, and what has come of the session: who has written it, with which code; the keys that
have been minted for it, with the code presented; and who has been shown a code when it could be
exchanged. -/
structure Login (H : Type) where
  stores : Stores H
  written : List (Uuid × String)
  minted : List (KeyRow H × String)
  shown : List (Uuid × String)

def Fate.takesEffect : Fate → Bool
  | .served | .unanswered _ => true
  | .lost _ => false

/-- Who writes the session in a call. -/
def LoginCall.writes : LoginCall → DashboardCall H → List (Uuid × String)
  | .authorize userId code, .putSession _ => [(userId, code)]
  | _, _ => []

/-- The key that a call inserts. -/
def LoginCall.mints (t : KeyTables H) : LoginCall → DashboardCall H → List (KeyRow H × String)
  | .exchange _ _ code, .query (.createApiKeyWithScopes key scopes) =>
      if t.violation key scopes = none then [((t.insertKey key scopes).1, code)] else []
  | _, _ => []

namespace Login

def serve (s : Login H) (k : LoginCall) (op : DashboardCall H) (fate : Fate) :
    op.Answer × Login H :=
  ((s.stores.meet op fate).1, { s with
    stores := (s.stores.meet op fate).2
    written := s.written ++ if fate.takesEffect then k.writes op else []
    minted := s.minted ++ if fate.takesEffect then k.mints s.stores.tables op else [] })

/-- An exchange of the code would find it to be the session's, and the session to be the user's. -/
def Exchangeable (s : Login H) (sessionId : String) (userId : Uuid) (code : String) : Prop :=
  ∃ session, s.stores.sessions sessionId = some session ∧ session.status = .authorized ∧
    session.userId = some userId ∧ session.verificationCodeHash = some (sha256 code)

instance (s : Login H) (sessionId : String) (userId : Uuid) (code : String) :
    Decidable (s.Exchangeable sha256 sessionId userId code) :=
  decidable_of_iff ((s.stores.sessions sessionId).any fun session =>
      session.status = .authorized ∧ session.userId = some userId ∧
        session.verificationCodeHash = some (sha256 code)) (by
    simp [Exchangeable, Option.any_eq_true])

/-- A request has been answered. -/
def answered (sessionId : String) (s : Login H) :
    LoginCall → Except AppError LoginResponse → Login H
  | .authorize userId code, .ok _ =>
      if s.Exchangeable sha256 sessionId userId code then
        { s with shown := s.shown ++ [(userId, code)] }
      else s
  | _, _ => s

/-- What other requests, the clock and the expiry of the session do. -/
def Others (sessionId : String) (s s' : Login H) : Prop :=
  ∃ stores, s' = { s with stores := stores } ∧
    (stores.sessions sessionId = s.stores.sessions sessionId ∨ stores.sessions sessionId = none)

end Login

/-- Requests about one session. -/
def loginServer (sessionId : String) :
    Server (Login H) LoginCall (DashboardCall H) DashboardCall.Answer
      (Except AppError LoginResponse) where
  starts _ k t := t = (k.program sha256 sessionId).run
  serves k op s ans s' := ∃ fate, s.serve k op fate = (ans, s')
  ends k r s := s.answered sha256 sessionId k r
  others := Login.Others sessionId

/-! ## Once -/

section Once

variable {sha256 : String → H} {sessionId hostname : String}

/-- What is asked of the logins with one session: only one user has been shown a code that could be
exchanged, only one key has been minted, and it is the user's who wrote the session with the code
that was presented. -/
structure OneShot (sha256 : String → H) (s : Login H) : Prop where
  shown : ∀ v ∈ s.shown, ∀ w ∈ s.shown, v.1 = w.1
  minted : s.minted.length ≤ 1
  owner : ∀ m ∈ s.minted, ∃ w ∈ s.written, m.1.userId = w.1 ∧
    sha256 w.2 = sha256 (String.ofList (trim m.2.toList))

/-- A call that is no second use of the session: an `authorize` writes it when only its own user has
been shown a code, and an `exchange` inserts a key when the keys that have been minted are of its
user and still active. -/
def FirstUse : LoginCall → DashboardCall H → Login H → Prop
  | .authorize userId _, .putSession _, s => ∀ v ∈ s.shown, v.1 = userId
  | .exchange _ _ _, .query (.createApiKeyWithScopes key _), s =>
      ∀ m ∈ s.minted, m.1.userId = key.userId ∧ m.1 ∈ s.stores.tables.apiKeys
  | _, _, _ => True

/-- A session as `start` or an `authorize` has put it. -/
structure Genuine (sha256 : String → H) (sessionId hostname : String)
    (written : List (Uuid × String)) (session : CliAuthSession H) : Prop where
  sessionId : session.sessionId = sessionId
  hostname : session.hostname = hostname
  authorized : session.status = .authorized → ∃ w ∈ written, session.userId = some w.1 ∧
    session.verificationCodeHash = some (sha256 w.2)

omit [DecidableEq H] in
lemma Genuine.mono {written written' : List (Uuid × String)} {session : CliAuthSession H}
    (h : Genuine sha256 sessionId hostname written session) (hle : written ⊆ written') :
    Genuine sha256 sessionId hostname written' session where
  sessionId := h.sessionId
  hostname := h.hostname
  authorized hstatus := by
    obtain ⟨w, hw, huser⟩ := h.authorized hstatus
    exact ⟨w, hle hw, huser⟩

/-- The name that the session's keys get. -/
def sessionKeyName (sessionId hostname : String) : String :=
  String.ofList (trim (cliKeyName hostname sessionId).toList)

structure Login.Valid (sha256 : String → H) (sessionId hostname : String) (s : Login H) : Prop
    extends OneShot sha256 s where
  stored : ∀ session, s.stores.sessions sessionId = some session →
    Genuine sha256 sessionId hostname s.written session
  current : ∀ session, s.stores.sessions sessionId = some session → session.status = .authorized →
    ∀ v ∈ s.shown, session.userId = some v.1
  named : ∀ m ∈ s.minted, m.1.name = sessionKeyName sessionId hostname ∧ m.1.revokedAt = none

/-- What the programs make sure of before they make a call. -/
def Prepared (sha256 : String → H) (sessionId hostname : String) (s : Login H) :
    LoginCall → DashboardCall H → Prop
  | k, .putSession session => ∃ userId code, k = .authorize userId code ∧
      session.sessionId = sessionId ∧ session.hostname = hostname ∧
      session.userId = some userId ∧ session.verificationCodeHash = some (sha256 code)
  | k, .query (.createApiKeyWithScopes key _) => ∃ fresh scopeIds code,
      k = .exchange fresh scopeIds code ∧ key.name = sessionKeyName sessionId hostname ∧
      ∃ w ∈ s.written, key.userId = w.1 ∧
        sha256 w.2 = sha256 (String.ofList (trim code.toList))
  | _, _ => True

/-- A session in the store was there before, or has just been put. -/
lemma Stores.sessions_meet {s : Stores H} {op : DashboardCall H} {fate : Fate}
    {session : CliAuthSession H}
    (h : (s.meet op fate).2.sessions sessionId = some session) :
    s.sessions sessionId = some session ∨
      (op = .putSession session ∧ session.sessionId = sessionId ∧ fate.takesEffect = true) := by
  have hserve : (s.serve op).2.sessions sessionId = some session →
      s.sessions sessionId = some session ∨
        (op = .putSession session ∧ session.sessionId = sessionId) := by
    intro h
    cases op with
    | query q => exact .inl h
    | utcNow => exact .inl h
    | getSession _ => exact .inl h
    | putSession put =>
        rcases Map.of_insert h with h | ⟨hid, rfl⟩
        · exact .inl h
        · exact .inr ⟨rfl, hid.symm⟩
    | deleteSession _ => exact .inl (Map.of_remove h)
  cases fate with
  | served => exact (hserve h).imp_right fun ⟨hop, hid⟩ => ⟨hop, hid, rfl⟩
  | lost err => exact .inl h
  | unanswered err => exact (hserve h).imp_right fun ⟨hop, hid⟩ => ⟨hop, hid, rfl⟩

lemma LoginCall.mem_mints {t : KeyTables H} {k : LoginCall} {op : DashboardCall H}
    {m : KeyRow H × String} (h : m ∈ k.mints t op) :
    ∃ fresh scopeIds code key scopes, k = .exchange fresh scopeIds code ∧
      op = .query (.createApiKeyWithScopes key scopes) ∧ t.violation key scopes = none ∧
      k.mints t op = [m] ∧ m = ((t.insertKey key scopes).1, code) := by
  unfold LoginCall.mints at h
  split at h
  next fresh scopeIds code key scopes =>
    split at h
    next hviolation =>
      obtain rfl := List.mem_singleton.1 h
      refine ⟨fresh, scopeIds, code, key, scopes, rfl, rfl, hviolation, ?_, rfl⟩
      exact if_pos hviolation
    next => exact absurd h List.not_mem_nil
  next => exact absurd h List.not_mem_nil

/-- A key that is minted by a first use is the first that is minted. -/
lemma Login.Valid.minted_eq_nil {s : Login H} (h : s.Valid sha256 sessionId hostname)
    {k : LoginCall} {op : DashboardCall H} (hprep : Prepared sha256 sessionId hostname s k op)
    (hfirst : FirstUse k op s) {m : KeyRow H × String} (hm : m ∈ k.mints s.stores.tables op) :
    s.minted = [] := by
  obtain ⟨fresh, scopeIds, code, key, scopes, rfl, rfl, hviolation, -, -⟩ :=
    LoginCall.mem_mints hm
  refine List.eq_nil_iff_forall_not_mem.2 fun m' hm' => ?_
  -- an earlier key of the user has the name
  obtain ⟨-, hfree⟩ := KeyTables.fresh_of_violation hviolation
  obtain ⟨-, -, -, -, hname, -⟩ := hprep
  obtain ⟨huser, hrow⟩ := hfirst m' hm'
  obtain ⟨hname', hactive⟩ := h.named m' hm'
  exact hfree ⟨m'.1, hrow, huser, hname'.trans hname.symm, hactive⟩

/-- Calls that are prepared and are first uses keep the invariant. -/
lemma Login.Valid.serve {s : Login H} (h : s.Valid sha256 sessionId hostname) {k : LoginCall}
    {op : DashboardCall H} (hprep : Prepared sha256 sessionId hostname s k op)
    (hfirst : FirstUse k op s) (fate : Fate) :
    (s.serve k op fate).2.Valid sha256 sessionId hostname := by
  have hwritten : s.written ⊆ (s.serve k op fate).2.written := List.subset_append_left _ _
  have hminted : ∀ m ∈ (s.serve k op fate).2.minted, m ∈ s.minted ∨
      m ∈ k.mints s.stores.tables op := by
    intro m hm
    refine (List.mem_append.1 hm).imp_right fun hm => ?_
    split at hm
    · exact hm
    · exact absurd hm List.not_mem_nil
  have hput : ∀ session, op = .putSession session → fate.takesEffect = true →
      ∃ userId code, k = .authorize userId code ∧ session.userId = some userId ∧
        Genuine sha256 sessionId hostname (s.serve k op fate).2.written session := by
    rintro session rfl hfate
    obtain ⟨userId, code, rfl, hid, hhost, huser, hhash⟩ := hprep
    refine ⟨userId, code, rfl, huser, hid, hhost, fun _ => ⟨(userId, code), ?_, huser, hhash⟩⟩
    show (userId, code) ∈ s.written ++ if fate.takesEffect then [(userId, code)] else []
    rw [if_pos hfate]
    exact List.mem_append_right _ (List.mem_singleton_self _)
  refine ⟨⟨h.shown, ?_, fun m hm => ?_⟩, fun session hsession => ?_,
    fun session hsession hstatus v hv => ?_, fun m hm => ?_⟩
  · show (s.minted ++ if fate.takesEffect then k.mints s.stores.tables op else []).length ≤ 1
    rcases hmints : k.mints s.stores.tables op with _ | ⟨m, rest⟩
    · simpa using h.minted
    · have hmem : m ∈ k.mints s.stores.tables op := hmints ▸ List.mem_cons_self
      obtain ⟨-, -, -, -, -, -, -, -, hone, -⟩ := LoginCall.mem_mints hmem
      rw [h.minted_eq_nil hprep hfirst hmem, ← hmints, hone]
      split <;> simp
  · rcases hminted m hm with hm | hm
    · obtain ⟨w, hw, hm⟩ := h.owner m hm
      exact ⟨w, hwritten hw, hm⟩
    · obtain ⟨fresh, scopeIds, code, key, scopes, rfl, rfl, -, -, rfl⟩ := LoginCall.mem_mints hm
      obtain ⟨_, _, code', hk, -, w, hw, huser, hhash⟩ := hprep
      obtain ⟨-, -, rfl⟩ := LoginCall.exchange.inj hk
      exact ⟨w, hwritten hw, huser, hhash⟩
  · rcases Stores.sessions_meet hsession with hsession | ⟨hop, -, hfate⟩
    · exact (h.stored session hsession).mono hwritten
    · obtain ⟨-, -, -, -, hgenuine⟩ := hput session hop hfate
      exact hgenuine
  · rcases Stores.sessions_meet hsession with hsession | ⟨hop, -, hfate⟩
    · exact h.current session hsession hstatus v hv
    · obtain ⟨userId, code, rfl, huser, -⟩ := hput session hop hfate
      subst hop
      rw [huser, hfirst v hv]
  · rcases hminted m hm with hm | hm
    · exact h.named m hm
    · obtain ⟨fresh, scopeIds, code, key, scopes, rfl, rfl, -, -, rfl⟩ := LoginCall.mem_mints hm
      obtain ⟨-, -, -, -, hname, -⟩ := hprep
      exact ⟨hname, rfl⟩

/-- A code is shown. -/
lemma Login.Valid.answered {s : Login H} (h : s.Valid sha256 sessionId hostname) (k : LoginCall)
    (r : Except AppError LoginResponse) :
    (s.answered sha256 sessionId k r).Valid sha256 sessionId hostname ∧
      s.written ⊆ (s.answered sha256 sessionId k r).written := by
  unfold Login.answered
  split
  next userId code _ =>
    split
    next hex =>
      obtain ⟨session, hsession, hstatus, huser, -⟩ := hex
      have hsame : ∀ v ∈ s.shown, v.1 = userId := fun v hv =>
        Option.some.inj ((h.current session hsession hstatus v hv).symm.trans huser)
      have hsame : ∀ v ∈ s.shown ++ [(userId, code)], v.1 = userId := by
        intro v hv
        rcases List.mem_append.1 hv with hv | hv
        · exact hsame v hv
        · rw [List.mem_singleton.1 hv]
      refine ⟨⟨⟨fun v hv w hw => (hsame v hv).trans (hsame w hw).symm, h.minted, h.owner⟩,
        h.stored, fun session' hsession' hstatus' v hv => ?_, h.named⟩, List.Subset.refl _⟩
      obtain rfl := Option.some.inj (hsession.symm.trans hsession')
      rw [huser, hsame v hv]
    next => exact ⟨h, List.Subset.refl _⟩
  next => exact ⟨h, List.Subset.refl _⟩

omit [DecidableEq H] in
lemma Login.Valid.others {s s' : Login H} (h : s.Valid sha256 sessionId hostname)
    (hothers : Login.Others sessionId s s') :
    s'.Valid sha256 sessionId hostname ∧ s.written ⊆ s'.written := by
  obtain ⟨stores, rfl, hstores⟩ := hothers
  have hsessions : ∀ session, stores.sessions sessionId = some session →
      s.stores.sessions sessionId = some session := by
    intro session hsession
    rcases hstores with heq | hnone
    · exact heq.symm.trans hsession
    · rw [hnone] at hsession
      cases hsession
  exact ⟨⟨⟨h.shown, h.minted, h.owner⟩,
    fun session hsession => h.stored session (hsessions session hsession),
    fun session hsession => h.current session (hsessions session hsession), h.named⟩,
    List.Subset.refl _⟩

/-! ### The requests -/

/-- A request under way makes its calls prepared, whatever the others do. -/
structure Login.Sound (sha256 : String → H) (sessionId hostname : String) (k : LoginCall)
    {β : Type} (t : DashboardM H β) (s : Login H) : Prop where
  wp : Calls.wp (Calls.guarded (loginServer sha256 sessionId) FirstUse)
    (Login.Valid sha256 sessionId hostname) (fun s s' => s.written ⊆ s'.written) k
    (fun _ _ => True) t.run s

section Sound

variable {k : LoginCall} {β γ : Type} {s : Login H}

lemma Login.sound_call {op : DashboardCall H}
    {next : op.Answer → DashboardClient H (Except AppError β)}
    (hprep : ∀ s', s.written ⊆ s'.written → Prepared sha256 sessionId hostname s' k op)
    (hnext : ∀ ans (s₁ s₂ : Login H) fate, s.written ⊆ s₁.written → s₁.written ⊆ s₂.written →
      s₁.Valid sha256 sessionId hostname → s₁.serve k op fate = (ans, s₂) →
      Login.Sound sha256 sessionId hostname k (ExceptT.mk (next ans)) s₂) :
    Login.Sound sha256 sessionId hostname k (ExceptT.mk (.call op next)) s := by
  constructor
  rintro s₁ ans s₂ hle hvalid ⟨hfirst, fate, hserve⟩
  have hs₂ : (s₁.serve k op fate).2 = s₂ := congrArg Prod.snd hserve
  have hgrown : s₁.written ⊆ s₂.written := hs₂ ▸ List.subset_append_left _ _
  exact ⟨hs₂ ▸ hvalid.serve (hprep s₁ hle) hfirst fate, hgrown,
    (hnext ans s₁ s₂ fate hle hgrown hvalid hserve).wp⟩

lemma Login.sound_throw (err : AppError) :
    Login.Sound sha256 sessionId hostname k (throw err : DashboardM H β) s := ⟨trivial⟩

lemma Login.sound_pure (b : β) :
    Login.Sound sha256 sessionId hostname k (pure b : DashboardM H β) s := ⟨trivial⟩

lemma Login.sound_bindCont {f : β → DashboardM H γ} {r : Except AppError β}
    (h : ∀ b, r = .ok b → Login.Sound sha256 sessionId hostname k (f b) s) :
    Login.Sound sha256 sessionId hostname k (ExceptT.mk (ExceptT.bindCont f r)) s := by
  cases r with
  | ok b => exact h b rfl
  | error err => exact sound_throw err

lemma Login.sound_query {q : KeyQuery H} {f : q.Row → DashboardM H β}
    (hprep : ∀ s', s.written ⊆ s'.written → Prepared sha256 sessionId hostname s' k (.query q))
    (hnext : ∀ row s', s.written ⊆ s'.written →
      Login.Sound sha256 sessionId hostname k (f row) s') :
    Login.Sound sha256 sessionId hostname k (query q >>= f) s :=
  sound_call hprep fun _ _ s₂ _ hle hgrown _ _ =>
    sound_bindCont fun row _ => hnext row s₂ (List.Subset.trans hle hgrown)

lemma Login.sound_utcNow {f : ℕ → DashboardM H β}
    (hnext : ∀ now s', s.written ⊆ s'.written →
      Login.Sound sha256 sessionId hostname k (f now) s') :
    Login.Sound sha256 sessionId hostname k (utcNow >>= f) s :=
  sound_call (fun _ _ => trivial) fun now _ s₂ _ hle hgrown _ _ =>
    hnext now s₂ (List.Subset.trans hle hgrown)

lemma Login.sound_putSession {session : CliAuthSession H} {f : Unit → DashboardM H β}
    (hprep : ∀ s', Prepared sha256 sessionId hostname s' k (.putSession session))
    (hnext : ∀ s', Login.Sound sha256 sessionId hostname k (f ()) s') :
    Login.Sound sha256 sessionId hostname k (putSession session >>= f) s :=
  sound_call (fun s' _ => hprep s') fun _ _ s₂ _ _ _ _ _ => sound_bindCont fun _ _ => hnext s₂

lemma Login.sound_deleteSession {f : Unit → DashboardM H β}
    (hnext : ∀ s', Login.Sound sha256 sessionId hostname k (f ()) s') :
    Login.Sound sha256 sessionId hostname k (deleteSession sessionId >>= f) s :=
  sound_call (fun _ _ => trivial) fun _ _ s₂ _ _ _ _ _ => sound_bindCont fun _ _ => hnext s₂

/-- A session that is read is genuine. -/
lemma Login.sound_getSession {f : Option (CliAuthSession H) → DashboardM H β}
    (hnone : ∀ s', Login.Sound sha256 sessionId hostname k (f none) s')
    (hsome : ∀ session s', Genuine sha256 sessionId hostname s'.written session →
      Login.Sound sha256 sessionId hostname k (f (some session)) s') :
    Login.Sound sha256 sessionId hostname k (getSession sessionId >>= f) s := by
  refine sound_call (fun _ _ => trivial) fun ans s₁ s₂ fate _ hgrown hvalid hserve =>
    sound_bindCont fun found hfound => ?_
  have hread : found = s₁.stores.sessions sessionId := by
    have hans : (s₁.stores.meet (.getSession sessionId) fate).1 = .ok found :=
      (congrArg Prod.fst hserve).trans hfound
    cases fate with
    | served => exact (Except.ok.inj hans).symm
    | lost err => cases hans
    | unanswered err => cases hans
  cases found with
  | none => exact hnone s₂
  | some session => exact hsome session s₂ ((hvalid.stored session hread.symm).mono hgrown)

lemma Login.Sound.bind {t : DashboardM H β} {f : β → DashboardM H γ}
    (h : Login.Sound sha256 sessionId hostname k t s)
    (hnext : ∀ b s', Login.Sound sha256 sessionId hostname k (f b) s') :
    Login.Sound sha256 sessionId hostname k (t >>= f) s :=
  ⟨Calls.wp_bindExcept (Calls.wp_mono
    (fun _ s' _ => ⟨fun b _ => (hnext b s').wp, fun _ _ => trivial⟩) h.wp)⟩

lemma Login.sound_authorizeSession {code : String} {userId : Uuid} {session : CliAuthSession H}
    (hgenuine : Genuine sha256 sessionId hostname s.written session) :
    Login.Sound sha256 sessionId hostname (.authorize userId code)
      (authorizeSession sha256 code userId session) s := by
  unfold authorizeSession
  split
  · exact sound_throw _
  refine sound_utcNow fun now s₁ _ => ?_
  split
  · exact sound_throw _
  refine sound_utcNow fun authorizedAt s₂ _ => sound_putSession (fun _ => ?_) fun _ => sound_pure _
  exact ⟨userId, code, rfl, hgenuine.sessionId, hgenuine.hostname, rfl, rfl⟩

lemma Login.sound_mintKey {fresh : FreshKey} {scopeIds : Uuid × Uuid} {code : String}
    {session : CliAuthSession H} {userId : Uuid} (hhost : session.hostname = hostname)
    (howner : ∃ w ∈ s.written, userId = w.1 ∧
      sha256 w.2 = sha256 (String.ofList (trim code.toList))) :
    Login.Sound sha256 sessionId hostname (.exchange fresh scopeIds code)
      (mintKey sha256 fresh scopeIds sessionId userId session) s := by
  unfold mintKey
  refine Login.Sound.bind ?_ fun issued s₁ => sound_deleteSession fun s₂ =>
    sound_query (fun _ _ => trivial) fun profile s₃ _ => ?_
  · unfold issueApiKeyWithScopes
    dsimp only
    split
    · exact sound_throw _
    refine sound_query (fun s' hle => ?_) fun _ _ _ => sound_pure _
    obtain ⟨w, hw, howner⟩ := howner
    have hname : String.ofList (trim (cliKeyName session.hostname sessionId).toList) =
        sessionKeyName sessionId hostname := by
      rw [hhost, sessionKeyName]
    exact ⟨fresh, scopeIds, code, rfl, hname, w, hle hw, howner⟩
  · split
    · exact sound_throw _
    · exact sound_pure _

lemma Login.sound_exchangeSession {fresh : FreshKey} {scopeIds : Uuid × Uuid} {code : String}
    {session : CliAuthSession H}
    (hgenuine : Genuine sha256 sessionId hostname s.written session) :
    Login.Sound sha256 sessionId hostname (.exchange fresh scopeIds code)
      (exchangeSession sha256 fresh scopeIds sessionId code session) s := by
  unfold exchangeSession
  split
  · exact sound_throw _
  next hstatus =>
    refine sound_utcNow fun now s₁ hle => ?_
    split
    · exact sound_throw _
    obtain ⟨w, hw, huser, hhash⟩ := hgenuine.authorized (not_not.1 hstatus)
    split
    · exact sound_throw _
    next expectedHash hexpected =>
      split
      · exact sound_throw _
      next hmatch =>
        split
        · exact sound_throw _
        next userId huserId =>
          refine sound_mintKey hgenuine.hostname ⟨w, hle hw, ?_, ?_⟩
          · exact Option.some.inj (huserId.symm.trans huser)
          · exact (Option.some.inj (hhash.symm.trans hexpected)).trans (not_not.1 hmatch)

lemma Login.sound_program (k : LoginCall) (s : Login H) :
    Login.Sound sha256 sessionId hostname k (k.program sha256 sessionId) s := by
  cases k with
  | authorize userId code =>
      refine Login.Sound.bind ?_ fun _ _ => sound_pure _
      exact sound_getSession (fun _ => sound_throw _) fun _ _ => sound_authorizeSession
  | exchange fresh scopeIds code =>
      refine Login.Sound.bind ?_ fun _ _ => sound_pure _
      exact sound_getSession (fun _ => sound_throw _) fun _ _ => sound_exchangeSession

end Sound

/-- **One-shot.**  In every run of `authorize` and `exchange` requests about a session that has been
started, in any number and order, with calls that fail at any point, in which nobody uses the
session a second time, one user is shown a code, one key is minted, and it is the user's whose code
was presented. -/
theorem oneShot_of_run {stores : Stores H} {clientName : String} {now : ℕ}
    (hstarted : stores.sessions sessionId = some (newSession sessionId clientName hostname now))
    {q : Calls (Login H) LoginCall (DashboardCall H) DashboardCall.Answer
      (Except AppError LoginResponse)}
    (hrun : Calls.Run (loginServer sha256 sessionId) (Calls.Guarded FirstUse)
      ⟨⟨stores, [], [], []⟩, []⟩ q) : OneShot sha256 q.shared := by
  have hstart : Login.Valid sha256 sessionId (clampText hostname 80) ⟨stores, [], [], []⟩ := by
    have hsession : ∀ session, stores.sessions sessionId = some session →
        session = newSession sessionId clientName hostname now := fun session hsession =>
      Option.some.inj (hsession.symm.trans hstarted)
    refine ⟨⟨?_, Nat.zero_le _, ?_⟩, fun session hs => ?_, fun session _ _ v hv => ?_, ?_⟩
    · exact fun v hv => absurd hv List.not_mem_nil
    · exact fun m hm => absurd hm List.not_mem_nil
    · obtain rfl := hsession session hs
      exact ⟨rfl, rfl, fun hstatus => by cases hstatus⟩
    · exact absurd hv List.not_mem_nil
    · exact fun m hm => absurd hm List.not_mem_nil
  have hvalid : q.shared.Valid sha256 sessionId (clampText hostname 80) := by
    refine Calls.Run.sound (Q := fun _ _ _ => True) (R := fun s s' => s.written ⊆ s'.written)
      (fun _ => List.Subset.refl _) (fun h h' => List.Subset.trans h h') ?_ ?_ ?_ hstart
      hrun.toGuarded
    · rintro s k t - rfl
      exact (Login.sound_program k s).wp
    · intro k r _ s _ _ hs
      exact hs.answered k r
    · intro s s' hs hothers
      exact hs.others hothers
  exact hvalid.toOneShot

end Once

/-! ## Two users -/

section Examples

variable {sha256 : String → H} {sessionId : String}

/-- The calls of a request, none of which fails. -/
abbrev LoginCall.served (k : LoginCall) (s : Login H) (op : DashboardCall H) :
    op.Answer × Login H := s.serve k op .served

/-- A request comes in and is answered, none of its calls failing, while others wait. -/
lemma run_request {G : LoginCall → DashboardCall H → Login H → Prop}
    {p : Calls (Login H) LoginCall (DashboardCall H) DashboardCall.Answer
      (Except AppError LoginResponse)}
    {waiting : List (LoginCall × DashboardClient H (Except AppError LoginResponse))} {s : Login H}
    (h : Calls.Run (loginServer sha256 sessionId) (Calls.Guarded G) p ⟨s, waiting⟩)
    (k : LoginCall) (n : ℕ) {r : Except AppError LoginResponse}
    (hdone : ((k.program sha256 sessionId).run.after k.served n s).1 = .done r)
    (hguard : (k.program sha256 sessionId).run.Along k.served (fun s op => G k op s) n s) :
    Calls.Run (loginServer sha256 sessionId) (Calls.Guarded G) p
      ⟨((k.program sha256 sessionId).run.after k.served n s).2.answered sha256 sessionId k r,
        waiting⟩ := by
  have hstarted := h.step (.started (k := k) rfl) trivial
  have hcalls := @Calls.Run.after_among _ _ _ _ _ (loginServer sha256 sessionId) (Calls.Guarded G)
    k.served (fun s op => G k op s) p k waiting [] (fun s op => ⟨.served, rfl⟩)
    (fun s op next hG => hG) n _ s hguard hstarted
  rw [hdone] at hcalls
  have hended := hcalls.step (.ended rfl) trivial
  rwa [List.append_nil] at hended

def annId : Uuid := ⟨List.replicate 16 25, rfl⟩

def beaId : Uuid := ⟨List.replicate 16 26, rfl⟩

/-- Two users, and a session that has been started. -/
def laptopStores : Stores String where
  tables :=
    { users := [⟨⟨annId, false⟩, "ann@shardd", none⟩, ⟨⟨beaId, false⟩, "bea@shardd", none⟩]
      apiKeys := []
      scopes := [] }
  sessions := Map.insert (fun _ => none) "c2Vzc2lvbg" (newSession "c2Vzc2lvbg" "shardd" "laptop" 10)
  clock := 20

def annAuthorizes : LoginCall := .authorize annId "CODEANN234"

def beaAuthorizes : LoginCall := .authorize beaId "CODEBEA567"

def annExchanges : LoginCall :=
  .exchange ⟨⟨List.replicate 16 27, rfl⟩, "sk_live_ann"⟩
    (⟨List.replicate 16 28, rfl⟩, ⟨List.replicate 16 29, rfl⟩) "CODEANN234"

def beaExchanges : LoginCall :=
  .exchange ⟨⟨List.replicate 16 30, rfl⟩, "sk_live_bea"⟩
    (⟨List.replicate 16 31, rfl⟩, ⟨List.replicate 16 32, rfl⟩) "CODEBEA567"

/-- The session has been started, and nobody has used it. -/
def laptopLogin : Login String := ⟨laptopStores, [], [], []⟩

/-- A user authorizes the session and exchanges the code. -/
theorem oneShot_of_run_laptop : ∃ q : Calls (Login String) LoginCall (DashboardCall String)
      DashboardCall.Answer (Except AppError LoginResponse),
    Calls.Run (loginServer id "c2Vzc2lvbg") (Calls.Guarded FirstUse) ⟨laptopLogin, []⟩ q ∧
      q.shared.minted.length = 1 ∧ OneShot id q.shared := by
  have hstart : Calls.Run (loginServer id "c2Vzc2lvbg") (Calls.Guarded FirstUse)
      ⟨laptopLogin, []⟩ ⟨laptopLogin, []⟩ := .refl
  have hauthorized := run_request hstart annAuthorizes 4 rfl
    ⟨trivial, trivial, trivial, fun v hv => absurd hv List.not_mem_nil, trivial⟩
  have hexchanged := run_request hauthorized annExchanges 5 rfl
    ⟨trivial, trivial, fun v hv => absurd hv List.not_mem_nil, trivial, trivial, trivial⟩
  exact ⟨_, hexchanged, rfl, oneShot_of_run rfl hexchanged⟩

/-- Both users read the session before one of them writes it: when the first has exchanged the code
and the session is gone, the second writes it again, is shown a code, and gets a key as well. -/
theorem not_oneShot_laptop : ∃ q : Calls (Login String) LoginCall (DashboardCall String)
      DashboardCall.Answer (Except AppError LoginResponse),
    Calls.Run (loginServer id "c2Vzc2lvbg") (Calls.Guarded fun _ _ _ => True) ⟨laptopLogin, []⟩ q ∧
      q.shared.shown.map Prod.fst = [annId, beaId] ∧ q.shared.minted.length = 2 ∧
      ¬ OneShot id q.shared := by
  have hstart : Calls.Run (loginServer id "c2Vzc2lvbg") (Calls.Guarded fun _ _ _ => True)
      ⟨laptopLogin, []⟩ ⟨laptopLogin, []⟩ := .refl
  -- the second user reads the session
  have hread := hstart.step (.started (k := beaAuthorizes) rfl) trivial
  have hread := @Calls.Run.after_among _ _ _ _ _ (loginServer id "c2Vzc2lvbg")
    (Calls.Guarded fun _ _ _ => True) beaAuthorizes.served (fun _ _ => True) _ beaAuthorizes [] []
    (fun s op => ⟨.served, rfl⟩) (fun _ _ _ _ => trivial) 1 _ _ (Client.along_true _ _ _ _) hread
  -- the first user logs in
  have hfirst := run_request hread annAuthorizes 4 rfl (Client.along_true _ _ _ _)
  have hfirst := run_request hfirst annExchanges 5 rfl (Client.along_true _ _ _ _)
  -- the second user goes on
  have hwritten := @Calls.Run.after_among _ _ _ _ _ (loginServer id "c2Vzc2lvbg")
    (Calls.Guarded fun _ _ _ => True) beaAuthorizes.served (fun _ _ => True) _ beaAuthorizes [] []
    (fun s op => ⟨.served, rfl⟩) (fun _ _ _ _ => trivial) 3 _ _ (Client.along_true _ _ _ _) hfirst
  have hshown := hwritten.step .ended_alone trivial
  have hsecond := run_request hshown beaExchanges 5 rfl (Client.along_true _ _ _ _)
  exact ⟨_, hsecond, rfl, rfl, fun h => absurd h.minted (by decide)⟩

end Examples

end Shardd.Dashboard
