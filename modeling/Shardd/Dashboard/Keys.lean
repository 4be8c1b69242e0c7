import Shardd.Dashboard.Calls

/-!
# Issuing and rotating keys (`apps/dashboard/src/application/use_cases/developer_auth.rs`)

Rotating a key reads its row, revokes it and issues a key of the same name, in three calls to the
database.  The new key has no scopes, so the old key's access is lost with the old key; and when the
last of the calls fails there is no new key at all.
-/

namespace Shardd.Dashboard

variable {H : Type}

/-! ## Issuing and rotating keys -/

structure IssuedApiKey (H : Type) where
  apiKey : KeyRow H
  rawKey : String

/-- What a key is made from: the id of its row, and the text that `generate_api_key` draws. -/
structure FreshKey where
  id : Uuid
  rawKey : String

/-- `sha256` is the hash of a text. -/
def issueApiKeyWithScopes (sha256 : String → H) (fresh : FreshKey) (userId : Uuid) (name : String)
    (expiresAt : Option ℕ) (scopes : List (Uuid × NewScope)) : DashboardM H (IssuedApiKey H) :=
  let trimmed := String.ofList (trim name.toList)
  if trimmed = "" then throw (.invalidInput "API key name is required")
  else do
    let apiKey ← query (.createApiKeyWithScopes
      { id := fresh.id
        userId := userId
        name := trimmed
        keyHash := sha256 fresh.rawKey
        expiresAt := expiresAt } scopes)
    return ⟨apiKey, fresh.rawKey⟩

def issueApiKey (sha256 : String → H) (fresh : FreshKey) (userId : Uuid) (name : String)
    (expiresAt : Option ℕ) : DashboardM H (IssuedApiKey H) :=
  issueApiKeyWithScopes sha256 fresh userId name expiresAt []

def rotateApiKey (sha256 : String → H) (fresh : FreshKey) (apiKeyId : Uuid) :
    DashboardM H (IssuedApiKey H) := do
  match ← query (.getApiKey apiKeyId) with
  | none => throw .notFound
  | some existing =>
    query (.revokeApiKey apiKeyId)
    issueApiKey sha256 fresh existing.userId existing.name existing.expiresAt

/-! ## What a key allows -/

section Allowed

variable [DecidableEq H] {sha256 : String → H} {t : KeyTables H} {time : ℕ}
  {rawKey bucket : String} {action : MachineAction}

/-- A dashboard that answers at once, at this time. -/
def KeyTables.answers (t : KeyTables H) (time : ℕ) : (op : AuthCall H) → op.Answer :=
  answersAt ⟨fun _ => false, fun _ _ => .error "no session"⟩ time t.db t.db

/-- An introspection of the key at this time allows the action. -/
def KeyTables.Allowed (sha256 : String → H) (t : KeyTables H) (time : ℕ) (rawKey : String)
    (action : MachineAction) (bucket : String) : Prop :=
  ∃ ttl d, (introspect sha256 ttl rawKey action bucket).run.eval (t.answers time) = .ok d ∧
    d.allowed = true

/-- A key that is in order at this time. -/
structure KeyTables.InOrder (sha256 : String → H) (t : KeyTables H) (time : ℕ) (rawKey : String)
    (found : ApiKeyWithOwner H) : Prop where
  nonempty : trim rawKey.toList ≠ []
  lookup : t.db.lookupApiKeyByHash (sha256 rawKey) = some found
  unfrozen : found.user.isFrozen = false
  unrevoked : found.apiKey.revokedAt = none
  unexpired : ∀ expiresAt, found.apiKey.expiresAt = some expiresAt → time < expiresAt

lemma eval_keyExpired_eq (apiKey : DeveloperApiKey H) :
    (keyExpired apiKey).eval (t.answers time) =
      apiKey.expiresAt.any fun e => decide (e ≤ time) := by
  unfold keyExpired
  split
  next hnone =>
    rw [hnone]
    rfl
  next expiresAt hsome =>
    rw [hsome]
    rfl

lemma eval_matchScope_eq (ttl : ℕ) (found : ApiKeyWithOwner H) :
    (matchScope ttl found action bucket).run.eval (t.answers time) =
      match (t.db.listScopes found.apiKey.id).find? (scopeAllows · action bucket) with
      | none => .ok (denied true (some found.user.id) "scope_denied")
      | some scope => .ok (allowedBy ttl found scope) := by
  have hlist : (Shardd.listScopes found.apiKey.id).run.eval (t.answers time) =
      .ok (t.db.listScopes found.apiKey.id) := rfl
  unfold matchScope
  rw [Client.eval_bindExcept hlist]
  cases (t.db.listScopes found.apiKey.id).find? (scopeAllows · action bucket) <;> rfl

lemma eval_introspectKey_eq (ttl : ℕ) (found : ApiKeyWithOwner H) :
    (introspectKey ttl found action bucket).run.eval (t.answers time) =
      if found.user.isFrozen then .ok (denied false (some found.user.id) "user_frozen")
      else if found.apiKey.revokedAt.isSome then
        .ok (denied false (some found.user.id) "api_key_revoked")
      else if found.apiKey.expiresAt.any fun e => decide (e ≤ time) then
        .ok (denied false (some found.user.id) "api_key_expired")
      else (matchScope ttl found action bucket).run.eval (t.answers time) := by
  have hexpired : (ExceptT.lift (keyExpired found.apiKey) : AuthM H Bool).run.eval
      (t.answers time) = .ok (found.apiKey.expiresAt.any fun e => decide (e ≤ time)) :=
    (Client.eval_bind _ (keyExpired found.apiKey) _).trans (congrArg Except.ok
      (eval_keyExpired_eq found.apiKey))
  unfold introspectKey
  split
  · rfl
  split
  · rfl
  · refine (Client.eval_bindExcept hexpired).trans ?_
    split <;> rfl

lemma eval_introspect_eq (ttl : ℕ) : (introspect sha256 ttl rawKey action bucket).run.eval
      (t.answers time) =
    if trim rawKey.toList = [] then .ok (denied false none "missing_api_key")
    else match t.db.lookupApiKeyByHash (sha256 rawKey) with
      | none => .ok (denied false none "invalid_api_key")
      | some found => (introspectKey ttl found action bucket).run.eval (t.answers time) := by
  have hlookup : (Shardd.lookupApiKeyByHash (sha256 rawKey)).run.eval (t.answers time) =
      .ok (t.db.lookupApiKeyByHash (sha256 rawKey)) := rfl
  unfold introspect
  split
  · rfl
  · rw [Client.eval_bindExcept hlookup]
    cases t.db.lookupApiKeyByHash (sha256 rawKey) <;> rfl

/-- A key in order is allowed what its scopes allow. -/
lemma KeyTables.InOrder.allowed {found : ApiKeyWithOwner H} {scope : DeveloperApiKeyScope}
    (h : t.InOrder sha256 time rawKey found) (hscope : scope ∈ t.db.listScopes found.apiKey.id)
    (hallows : scopeAllows scope action bucket = true) :
    t.Allowed sha256 time rawKey action bucket := by
  have hfind : ((t.db.listScopes found.apiKey.id).find? (scopeAllows · action bucket)).isSome :=
    List.find?_isSome.2 ⟨scope, hscope, hallows⟩
  obtain ⟨first, hfirst⟩ := Option.isSome_iff_exists.1 hfind
  have hexpired : (found.apiKey.expiresAt.any fun e => decide (e ≤ time)) = false := by
    rcases he : found.apiKey.expiresAt with _ | expiresAt
    · rfl
    · simpa using h.unexpired expiresAt he
  refine ⟨0, allowedBy 0 found first, ?_, rfl⟩
  rw [eval_introspect_eq, if_neg h.nonempty, h.lookup]
  show (introspectKey 0 found action bucket).run.eval (t.answers time) = _
  rw [eval_introspectKey_eq, if_neg (by simp [h.unfrozen]), if_neg (by simp [h.unrevoked]),
    if_neg (by simp [hexpired]), eval_matchScope_eq, hfirst]

lemma allowed_iff : t.Allowed sha256 time rawKey action bucket ↔
    ∃ found, t.InOrder sha256 time rawKey found ∧
      ∃ scope ∈ t.db.listScopes found.apiKey.id, scopeAllows scope action bucket = true := by
  constructor
  · rintro ⟨ttl, d, hd, hallowed⟩
    rw [eval_introspect_eq] at hd
    split_ifs at hd with htrim
    · obtain rfl := Except.ok.inj hd
      cases hallowed
    split at hd
    · obtain rfl := Except.ok.inj hd
      cases hallowed
    next found hfound =>
      rw [eval_introspectKey_eq, eval_matchScope_eq] at hd
      split_ifs at hd with hfrozen hrevoked hexpired
      · obtain rfl := Except.ok.inj hd
        cases hallowed
      · obtain rfl := Except.ok.inj hd
        cases hallowed
      · obtain rfl := Except.ok.inj hd
        cases hallowed
      split at hd
      · obtain rfl := Except.ok.inj hd
        cases hallowed
      next scope hscope =>
        refine ⟨found, ⟨htrim, hfound, by simpa using hfrozen, by simpa using hrevoked, ?_⟩,
          scope, List.mem_of_find?_eq_some hscope, by simpa using List.find?_some hscope⟩
        intro expiresAt hexpires
        rw [hexpires] at hexpired
        simpa using hexpired
  · rintro ⟨found, horder, scope, hscope, hallows⟩
    exact horder.allowed hscope hallows

/-- Behind what a key is allowed there is its row, and a scope of it. -/
lemma KeyTables.Allowed.row (h : t.Allowed sha256 time rawKey action bucket) :
    ∃ key ∈ t.apiKeys, key.keyHash = sha256 rawKey ∧ key.revokedAt = none ∧
      ∃ scope ∈ t.scopes, scope.apiKeyId = key.id ∧
        scopeAllows scope.toDeveloperApiKeyScope action bucket = true := by
  obtain ⟨found, horder, scope, hscope, hallows⟩ := allowed_iff.1 h
  obtain ⟨apiKey, hkey, hfound⟩ := Option.bind_eq_some_iff.1 horder.lookup
  obtain ⟨user, -, hfound⟩ := Option.bind_eq_some_iff.1 hfound
  obtain rfl := Option.some.inj hfound
  obtain ⟨key, hmem, rfl⟩ := List.mem_map.1 (List.mem_of_find?_eq_some hkey)
  obtain ⟨hscope, hid⟩ := List.mem_filter.1 hscope
  obtain ⟨row, hrow, rfl⟩ := List.mem_map.1 hscope
  exact ⟨key, hmem, by simpa using List.find?_some hkey, horder.unrevoked, row, hrow,
    by simpa using hid, hallows⟩

end Allowed

/-! ## The tables are in order -/

/-- What the constraints of the tables give. -/
structure KeyTables.WellFormed (t : KeyTables H) : Prop where
  users : (t.users.map fun user => user.id).Nodup
  ids : (t.apiKeys.map fun key => key.id).Nodup
  hashes : (t.apiKeys.map fun key => key.keyHash).Nodup
  scopes : ∀ scope ∈ t.scopes, ∃ key ∈ t.apiKeys, key.id = scope.apiKeyId

section WellFormed

variable {t : KeyTables H} {key key' : KeyRow H}

lemma KeyTables.WellFormed.eq_of_keyHash (h : t.WellFormed) (hkey : key ∈ t.apiKeys)
    (hkey' : key' ∈ t.apiKeys) (heq : key.keyHash = key'.keyHash) : key = key' :=
  List.inj_on_of_nodup_map h.hashes hkey hkey' heq

lemma KeyTables.WellFormed.revoke (h : t.WellFormed) (now : ℕ) (apiKeyId : Uuid) :
    (t.revoke now apiKeyId).WellFormed := by
  have hids : (t.revoke now apiKeyId).apiKeys.map (fun key => key.id) =
      t.apiKeys.map fun key => key.id := by
    unfold KeyTables.revoke
    rw [List.map_map]
    refine List.map_congr_left fun key _ => ?_
    show (if key.id = apiKeyId then _ else key : KeyRow H).id = key.id
    split <;> rfl
  have hhashes : (t.revoke now apiKeyId).apiKeys.map (fun key => key.keyHash) =
      t.apiKeys.map fun key => key.keyHash := by
    unfold KeyTables.revoke
    rw [List.map_map]
    refine List.map_congr_left fun key _ => ?_
    show (if key.id = apiKeyId then _ else key : KeyRow H).keyHash = key.keyHash
    split <;> rfl
  refine ⟨h.users, by rw [hids]; exact h.ids, by rw [hhashes]; exact h.hashes,
    fun scope hscope => ?_⟩
  obtain ⟨key, hkey, hid⟩ := h.scopes scope hscope
  have hmem : scope.apiKeyId ∈ (t.revoke now apiKeyId).apiKeys.map fun key => key.id := by
    rw [hids]
    exact List.mem_map.2 ⟨key, hkey, hid⟩
  exact List.mem_map.1 hmem

/-- What an insertion that violates nothing inserts is new. -/
lemma KeyTables.fresh_of_violation [DecidableEq H] {new : NewApiKey H}
    {scopes : List (Uuid × NewScope)} (h : t.violation new scopes = none) :
    (∀ key ∈ t.apiKeys, key.id ≠ new.id ∧ key.keyHash ≠ new.keyHash) ∧
      ¬ t.NameTaken new.userId new.name := by
  unfold KeyTables.violation at h
  split_ifs at h with hid hhash hname
  exact ⟨fun key hkey => ⟨fun heq => hid ⟨key, hkey, heq⟩, fun heq => hhash ⟨key, hkey, heq⟩⟩,
    hname⟩

end WellFormed

/-! ## Rotation -/

section Rotation

variable [DecidableEq H] {sha256 : String → H} {t t' : KeyTables H} {time : ℕ}
  {rawKey : String} {old : KeyRow H}

/-- What is asked of a rotation that comes to `r`: a new key is allowed what the old key was allowed
before, and the old key nothing; after a failure the old key is allowed what it was; and a key that
was revoked or has expired does not lead to a key that is allowed anything. -/
structure RotationKeepsAccess (sha256 : String → H) (t : KeyTables H) (time : ℕ) (rawKey : String)
    (old : KeyRow H) (r : Except AppError (IssuedApiKey H)) (t' : KeyTables H) : Prop where
  ok : ∀ issued, r = .ok issued → ∀ action bucket,
    (t'.Allowed sha256 time issued.rawKey action bucket ↔
      t.Allowed sha256 time rawKey action bucket) ∧
    ¬ t'.Allowed sha256 time rawKey action bucket
  error : ∀ err, r = .error err → ∀ action bucket,
    t'.Allowed sha256 time rawKey action bucket ↔ t.Allowed sha256 time rawKey action bucket
  dead : old.revokedAt ≠ none ∨ (∃ expiresAt, old.expiresAt = some expiresAt ∧ expiresAt ≤ time) →
    ∀ issued, r = .ok issued → ∀ action bucket,
      ¬ t'.Allowed sha256 time issued.rawKey action bucket

/-- A key whose rows are revoked is allowed nothing. -/
lemma not_allowed_of_revoked
    (h : ∀ key ∈ t.apiKeys, key.keyHash = sha256 rawKey → key.revokedAt ≠ none)
    (action : MachineAction) (bucket : String) : ¬ t.Allowed sha256 time rawKey action bucket := by
  intro hallowed
  obtain ⟨key, hkey, hhash, hrevoked, -⟩ := hallowed.row
  exact h key hkey hhash hrevoked

omit [DecidableEq H] in
/-- Revocation reaches the row of the key. -/
lemma KeyTables.WellFormed.revoked (h : t.WellFormed) (hold : old ∈ t.apiKeys)
    (hraw : sha256 rawKey = old.keyHash) (now : ℕ) {key : KeyRow H}
    (hkey : key ∈ (t.revoke now old.id).apiKeys) (hhash : key.keyHash = sha256 rawKey) :
    key.revokedAt ≠ none := by
  obtain ⟨row, hrow, rfl⟩ := List.mem_map.1 hkey
  have hsame : row.keyHash = old.keyHash := by
    rw [← hraw, ← hhash]
    show row.keyHash = (if row.id = old.id then _ else row : KeyRow H).keyHash
    split <;> rfl
  obtain rfl := h.eq_of_keyHash hrow hold hsame
  rw [if_pos rfl]
  exact Option.some_ne_none _

/-- What a rotation comes to once it has revoked the key: nothing else has happened, or a key
without scopes has been issued. -/
inductive Rotated (sha256 : String → H) (fresh : FreshKey) (t : KeyTables H) (now : ℕ)
    (old : KeyRow H) : Except AppError (IssuedApiKey H) → KeyTables H → Prop
  | failed (err : AppError) : Rotated sha256 fresh t now old (.error err) (t.revoke now old.id)
  | unanswered (err : AppError) (new : NewApiKey H) (hhash : new.keyHash = sha256 fresh.rawKey)
      (hnew : (t.revoke now old.id).violation new [] = none) :
      Rotated sha256 fresh t now old (.error err) ((t.revoke now old.id).insertKey new []).2
  | issued (new : NewApiKey H) (hhash : new.keyHash = sha256 fresh.rawKey)
      (hnew : (t.revoke now old.id).violation new [] = none) :
      Rotated sha256 fresh t now old
        (.ok ⟨((t.revoke now old.id).insertKey new []).1, fresh.rawKey⟩)
        ((t.revoke now old.id).insertKey new []).2

/-- The insertion leaves the old key revoked. -/
lemma not_allowed_insertKey (hwf : t.WellFormed) (hold : old ∈ t.apiKeys)
    (hraw : sha256 rawKey = old.keyHash) {now : ℕ} {new : NewApiKey H}
    (hnew : (t.revoke now old.id).violation new [] = none) (action : MachineAction)
    (bucket : String) :
    ¬ ((t.revoke now old.id).insertKey new []).2.Allowed sha256 time rawKey action bucket := by
  refine not_allowed_of_revoked (fun key hkey hhash => ?_) action bucket
  rcases List.mem_append.1 hkey with hkey | hkey
  · exact hwf.revoked hold hraw now hkey hhash
  · obtain rfl := List.mem_singleton.1 hkey
    -- the revoked row has the hash already
    obtain ⟨row, hrow, hrowHash⟩ : ∃ row ∈ (t.revoke now old.id).apiKeys,
        row.keyHash = old.keyHash :=
      ⟨_, List.mem_map_of_mem hold, by rw [if_pos rfl]⟩
    have hne := ((KeyTables.fresh_of_violation hnew).1 row hrow).2
    exact absurd (hrowHash.trans (hraw.symm.trans hhash.symm)) hne

/-- The old key is allowed nothing. -/
lemma Rotated.not_allowed {r : Except AppError (IssuedApiKey H)} (hwf : t.WellFormed)
    (hold : old ∈ t.apiKeys) (hraw : sha256 rawKey = old.keyHash) {fresh : FreshKey} {now : ℕ}
    (h : Rotated sha256 fresh t now old r t') (action : MachineAction) (bucket : String) :
    ¬ t'.Allowed sha256 time rawKey action bucket := by
  cases h with
  | failed err =>
      exact not_allowed_of_revoked (fun key hkey hhash => hwf.revoked hold hraw now hkey hhash)
        action bucket
  | unanswered err new _ hnew => exact not_allowed_insertKey hwf hold hraw hnew action bucket
  | issued new _ hnew => exact not_allowed_insertKey hwf hold hraw hnew action bucket

/-- The new key is allowed nothing. -/
lemma Rotated.new_not_allowed (hwf : t.WellFormed) {fresh : FreshKey} {now : ℕ}
    {issued : IssuedApiKey H} (h : Rotated sha256 fresh t now old (.ok issued) t')
    (action : MachineAction) (bucket : String) :
    ¬ t'.Allowed sha256 time issued.rawKey action bucket := by
  cases h with
  | issued new hhash hnew =>
      intro hallowed
      obtain ⟨hfresh, -⟩ := KeyTables.fresh_of_violation hnew
      obtain ⟨key, hkey, hkeyHash, -, scope, hscope, hid, -⟩ := hallowed.row
      have hscope : scope ∈ (t.revoke now old.id).scopes := by
        simpa [KeyTables.insertKey] using hscope
      rcases List.mem_append.1 hkey with hkey | hkey
      · exact (hfresh key hkey).2 (hkeyHash.trans hhash.symm)
      · obtain rfl := List.mem_singleton.1 hkey
        obtain ⟨row, hrow, hrowId⟩ := (hwf.revoke now old.id).scopes scope hscope
        exact (hfresh row hrow).1 (hrowId.trans hid)

/-- The run of a rotation: what it answers, and the tables it leaves. -/
def rotation (sha256 : String → H) (fresh : FreshKey) (fates : ℕ → Fate) (now : ℕ)
    (t : KeyTables H) (apiKeyId : Uuid) : Except AppError (IssuedApiKey H) × Counted H :=
  (rotateApiKey sha256 fresh apiKeyId).run.exec (Counted.serve fates) (.at t now 0)

/-- The row of the key is read, and the revocation that follows is not lost. -/
def Revokes (fates : ℕ → Fate) : Prop := fates 0 = .served ∧ ∀ err, fates 1 ≠ .lost err

/-- The row of the key has been read. -/
lemma rotation_eq {fresh : FreshKey} {fates : ℕ → Fate} (hget : fates 0 = .served) (now : ℕ)
    (hold : t.apiKeys.find? (·.id = old.id) = some old) :
    rotation sha256 fresh fates now t old.id =
      (query (.revokeApiKey old.id) >>= fun _ => issueApiKey sha256 fresh old.userId old.name
        old.expiresAt).run.exec (Counted.serve fates) (.at t now 1) := by
  have hread : (query (.getApiKey old.id)).run.exec (Counted.serve fates) (.at t now 0) =
      (.ok (some old), (.at t now 1)) := by
    rw [exec_query_served _ hget]
    show (Except.ok (t.apiKeys.find? (·.id = old.id)), _) = _
    rw [hold]
    rfl
  exact Client.exec_bindExcept_ok hread

variable (sha256) in
lemma rotation_of_not_revokes (fresh : FreshKey) {fates : ℕ → Fate} (hfates : ¬ Revokes fates)
    (now : ℕ) (hold : t.apiKeys.find? (·.id = old.id) = some old) :
    ∃ err, (rotation sha256 fresh fates now t old.id).1 = .error err ∧
      (rotation sha256 fresh fates now t old.id).2.stores.tables = t := by
  rcases hget : fates 0 with _ | err | err
  · obtain ⟨err, hlost⟩ : ∃ err, fates 1 = .lost err := by
      by_contra hne
      exact hfates ⟨hget, fun err heq => hne ⟨err, heq⟩⟩
    have hrevoke := exec_query_lost (s := Counted.at t now 1) (.revokeApiKey old.id) hlost
    rw [rotation_eq hget now hold, Client.exec_bindExcept_error hrevoke]
    exact ⟨err, rfl, rfl⟩
  · have hread := exec_query_lost (s := Counted.at t now 0) (.getApiKey old.id) hget
    rw [rotation, rotateApiKey, Client.exec_bindExcept_error hread]
    exact ⟨err, rfl, rfl⟩
  · have hread := exec_query_unanswered (s := Counted.at t now 0) (.getApiKey old.id) hget
    rw [rotation, rotateApiKey, Client.exec_bindExcept_error hread]
    exact ⟨err, rfl, rfl⟩

/-- A key without scopes is inserted, or not, once the old one is revoked. -/
lemma rotated_create {fresh : FreshKey} (fates : ℕ → Fate) {now : ℕ} {s : Counted H}
    (htables : s.stores.tables = t.revoke now old.id) {new : NewApiKey H}
    (hhash : new.keyHash = sha256 fresh.rawKey) {r : Except AppError (IssuedApiKey H)}
    {s' : Counted H}
    (hrun : (query (.createApiKeyWithScopes new []) >>= fun apiKey =>
      pure ⟨apiKey, fresh.rawKey⟩ : DashboardM H (IssuedApiKey H)).run.exec
        (Counted.serve fates) s = (r, s')) :
    Rotated sha256 fresh t now old r s'.stores.tables := by
  rcases hviolation : (t.revoke now old.id).violation new [] with _ | err
  · have hcreate : s.stores.tables.run s.stores.clock (.createApiKeyWithScopes new []) =
        (.ok ((t.revoke now old.id).insertKey new []).1,
          ((t.revoke now old.id).insertKey new []).2) := by
      show s.stores.tables.createApiKeyWithScopes new [] = _
      rw [htables, KeyTables.createApiKeyWithScopes, hviolation]
    rcases hfate : fates s.calls with _ | err | err
    · have hexec := exec_query_served (.createApiKeyWithScopes new []) hfate
      rw [hcreate] at hexec
      rw [Client.exec_bindExcept_ok hexec] at hrun
      obtain ⟨rfl, rfl⟩ := Prod.mk.inj hrun
      exact .issued new hhash hviolation
    · rw [Client.exec_bindExcept_error (exec_query_lost _ hfate)] at hrun
      obtain ⟨rfl, rfl⟩ := Prod.mk.inj hrun
      show Rotated sha256 fresh t now old _ s.stores.tables
      rw [htables]
      exact .failed err
    · have hexec := exec_query_unanswered (.createApiKeyWithScopes new []) hfate
      rw [hcreate] at hexec
      rw [Client.exec_bindExcept_error hexec] at hrun
      obtain ⟨rfl, rfl⟩ := Prod.mk.inj hrun
      exact .unanswered err new hhash hviolation
  · have hcreate : s.stores.tables.run s.stores.clock (.createApiKeyWithScopes new []) =
        (.error err, t.revoke now old.id) := by
      show s.stores.tables.createApiKeyWithScopes new [] = _
      rw [htables, KeyTables.createApiKeyWithScopes, hviolation]
    rcases hfate : fates s.calls with _ | err' | err'
    · have hexec := exec_query_served (.createApiKeyWithScopes new []) hfate
      rw [hcreate] at hexec
      rw [Client.exec_bindExcept_error hexec] at hrun
      obtain ⟨rfl, rfl⟩ := Prod.mk.inj hrun
      exact .failed err
    · rw [Client.exec_bindExcept_error (exec_query_lost _ hfate)] at hrun
      obtain ⟨rfl, rfl⟩ := Prod.mk.inj hrun
      show Rotated sha256 fresh t now old _ s.stores.tables
      rw [htables]
      exact .failed err'
    · have hexec := exec_query_unanswered (.createApiKeyWithScopes new []) hfate
      rw [hcreate] at hexec
      rw [Client.exec_bindExcept_error hexec] at hrun
      obtain ⟨rfl, rfl⟩ := Prod.mk.inj hrun
      exact .failed err'

lemma rotated_issueApiKey (fresh : FreshKey) (fates : ℕ → Fate) (now : ℕ) :
    Rotated sha256 fresh t now old
      ((issueApiKey sha256 fresh old.userId old.name old.expiresAt).run.exec
        (Counted.serve fates) (.at (t.revoke now old.id) now 2)).1
      ((issueApiKey sha256 fresh old.userId old.name old.expiresAt).run.exec
        (Counted.serve fates) (.at (t.revoke now old.id) now 2)).2.stores.tables := by
  unfold issueApiKey issueApiKeyWithScopes
  dsimp only
  split
  · exact .failed _
  · exact rotated_create fates rfl rfl rfl

lemma rotation_of_revokes {fresh : FreshKey} {fates : ℕ → Fate} (hfates : Revokes fates)
    (now : ℕ) (hold : t.apiKeys.find? (·.id = old.id) = some old) :
    Rotated sha256 fresh t now old (rotation sha256 fresh fates now t old.id).1
      (rotation sha256 fresh fates now t old.id).2.stores.tables := by
  obtain ⟨hget, hnotLost⟩ := hfates
  rw [rotation_eq hget now hold]
  rcases hrevoke : fates 1 with _ | err | err
  · have hexec := exec_query_served (s := Counted.at t now 1) (.revokeApiKey old.id) hrevoke
    have hexec : (query (.revokeApiKey old.id)).run.exec (Counted.serve fates) (.at t now 1) =
        (.ok (), .at (t.revoke now old.id) now 2) := hexec
    rw [Client.exec_bindExcept_ok hexec]
    exact rotated_issueApiKey fresh fates now
  · exact absurd hrevoke (hnotLost err)
  · have hexec := exec_query_unanswered (s := Counted.at t now 1) (.revokeApiKey old.id)
      hrevoke
    rw [Client.exec_bindExcept_error hexec]
    exact .failed err

/-- **Rotation.**  A rotation of a key keeps what is asked of it exactly when the key was allowed
nothing, or the rotation gives up before the key is revoked. -/
theorem rotationKeepsAccess_iff (hwf : t.WellFormed)
    (hold : t.apiKeys.find? (·.id = old.id) = some old) (hraw : sha256 rawKey = old.keyHash)
    (fresh : FreshKey) (fates : ℕ → Fate) (now : ℕ) :
    RotationKeepsAccess sha256 t time rawKey old (rotation sha256 fresh fates now t old.id).1
        (rotation sha256 fresh fates now t old.id).2.stores.tables ↔
      (∀ action bucket, ¬ t.Allowed sha256 time rawKey action bucket) ∨ ¬ Revokes fates := by
  have hmem : old ∈ t.apiKeys := List.mem_of_find?_eq_some hold
  by_cases hfates : Revokes fates
  · have hrotated : Rotated sha256 fresh t now old _ _ := rotation_of_revokes hfates now hold
    have hnothing : ∀ action bucket,
        ¬ (rotation sha256 fresh fates now t old.id).2.stores.tables.Allowed sha256 time rawKey
          action bucket := hrotated.not_allowed hwf hmem hraw
    constructor
    · intro h
      left
      intro action bucket hallowed
      rcases hr : (rotation sha256 fresh fates now t old.id).1 with err | issued
      · exact hnothing action bucket ((h.error err hr action bucket).2 hallowed)
      · rw [hr] at hrotated
        exact hrotated.new_not_allowed hwf action bucket
          ((h.ok issued hr action bucket).1.2 hallowed)
    · intro h
      have h := h.resolve_right (not_not.2 hfates)
      constructor
      · intro issued hr action bucket
        rw [hr] at hrotated
        exact ⟨iff_of_false (hrotated.new_not_allowed hwf action bucket) (h action bucket),
          hnothing action bucket⟩
      · intro err _ action bucket
        exact iff_of_false (hnothing action bucket) (h action bucket)
      · intro _ issued hr action bucket
        rw [hr] at hrotated
        exact hrotated.new_not_allowed hwf action bucket
  · obtain ⟨err, herr, htables⟩ := rotation_of_not_revokes sha256 fresh hfates now hold
    refine iff_of_true ⟨fun issued hr => ?_, fun _ _ action bucket => ?_, fun _ issued hr => ?_⟩
      (.inr hfates)
    · rw [herr] at hr
      cases hr
    · rw [htables]
    · rw [herr] at hr
      cases hr

end Rotation

/-! ## A key that may read -/

section Examples

def readerId : Uuid := ⟨List.replicate 16 21, rfl⟩

def readerKeyId : Uuid := ⟨List.replicate 16 22, rfl⟩

def readerScopeId : Uuid := ⟨List.replicate 16 23, rfl⟩

def newReaderKeyId : Uuid := ⟨List.replicate 16 24, rfl⟩

/-- A key of a user; a text is its own hash. -/
def readerKey : KeyRow String where
  id := readerKeyId
  userId := readerId
  keyHash := "sk_live_old"
  revokedAt := none
  expiresAt := none
  name := "reader"

/-- The key may read all buckets. -/
def readerTables : KeyTables String where
  users := [{ id := readerId, isFrozen := false, email := "reader@shardd", deletedAt := none }]
  apiKeys := [readerKey]
  scopes := [{ id := readerScopeId
               apiKeyId := readerKeyId
               resourceType := .bucket
               matchType := .all
               resourceValue := none
               canRead := true
               canWrite := false }]

lemma readerTables_wellFormed : readerTables.WellFormed where
  users := List.nodup_singleton _
  ids := List.nodup_singleton _
  hashes := List.nodup_singleton _
  scopes scope hscope := by
    obtain rfl := List.mem_singleton.1 hscope
    exact ⟨readerKey, List.mem_singleton_self _, rfl⟩

lemma readerTables_allowed (bucket : String) :
    readerTables.Allowed id 1000 "sk_live_old" .read bucket :=
  (show readerTables.InOrder id 1000 "sk_live_old" ⟨readerKey.toDeveloperApiKey, readerId, false⟩
    from ⟨by decide, rfl, rfl, rfl, fun _ h => by cases h⟩).allowed (List.mem_singleton_self _) rfl

/-- The key is rotated. -/
def readerRotation (fates : ℕ → Fate) : Except AppError (IssuedApiKey String) × Counted String :=
  rotation id ⟨newReaderKeyId, "sk_live_new"⟩ fates 900 readerTables readerKeyId

/-- When the insertion of the new key is lost, the old key may not read any more. -/
theorem rotationKeepsAccess_iff_lost :
    let r := readerRotation fun n => if n = 2 then .lost (.database "reset") else .served
    ¬ RotationKeepsAccess id readerTables 1000 "sk_live_old" readerKey r.1 r.2.stores.tables := by
  intro r h
  refine ((rotationKeepsAccess_iff readerTables_wellFormed (show _ = some readerKey from rfl) rfl
    ⟨newReaderKeyId, "sk_live_new"⟩ _ 900).1 h).elim (fun hnothing => ?_) fun hrevokes => ?_
  · exact hnothing .read "main" (readerTables_allowed "main")
  · exact hrevokes ⟨rfl, fun err herr => by cases herr⟩

/-- Nothing fails, and the new key may not read. -/
theorem not_rotationKeepsAccess_reader :
    let r := readerRotation fun _ => .served
    (∃ issued, r.1 = .ok issued) ∧
      ¬ RotationKeepsAccess id readerTables 1000 "sk_live_old" readerKey r.1 r.2.stores.tables := by
  intro r
  have hrotated : Rotated id ⟨newReaderKeyId, "sk_live_new"⟩ readerTables 900 readerKey r.1
      r.2.stores.tables :=
    rotation_of_revokes (show Revokes fun _ => .served from ⟨rfl, fun err herr => by cases herr⟩)
      900 rfl
  obtain ⟨issued, hissued⟩ : ∃ issued, r.1 = .ok issued := ⟨_, rfl⟩
  refine ⟨⟨issued, hissued⟩, fun h => ?_⟩
  rw [hissued] at hrotated
  exact hrotated.new_not_allowed readerTables_wellFormed .read "main"
    ((h.ok issued hissued .read "main").1.2 (readerTables_allowed "main"))

end Examples

end Shardd.Dashboard
