import Mathlib.Data.List.DropRight
import Mathlib.Data.List.Forall2
import Mathlib.Tactic.Common
import Shardd.Lib.Pool
import Shardd.Lib.Ranking

/-!
# The edges of the Rust client (`sdks/rust/src/edges.rs`)

The client keeps a ranked list of edges behind a mutex.  `probe_all` takes down the URLs, waits for
its probes without the mutex, and then hands the results to the list by position.  Requests that run
at the same time probe too, mark edges by URL, and a new directory may replace the list; what
`probe_all` finds when it comes back need not be the list it has probed.
-/

namespace Shardd.Sdk

/-! ## Candidates -/

/-- Sync-gap above which an edge is too stale to pick. -/
def maxAcceptableSyncGap : UInt64 := 100

/-- How long a failed edge stays on the bench. -/
def cooldownMs : ℕ := 60000

structure EdgeHealth where
  ready : Bool
  overloaded : Option Bool
  syncGap : Option UInt64
  deriving DecidableEq

def EdgeHealth.isSelectable (health : EdgeHealth) : Bool :=
  health.ready && health.overloaded != some true &&
    !(health.syncGap.any fun gap => decide (maxAcceptableSyncGap < gap))

/-- `probe_one`: the round-trip time and the health, or nothing. -/
abbrev ProbeResult := Option (UInt64 × EdgeHealth)

structure Candidate where
  baseUrl : String
  rttMs : Option UInt64
  cooldownUntil : Option ℕ
  deriving DecidableEq

namespace Candidate

def new (baseUrl : String) : Candidate := ⟨baseUrl, none, none⟩

variable (c : Candidate)

def isCool (now : ℕ) : Bool := c.cooldownUntil.any fun t => decide (now < t)

/-- What `probe_all` does with the candidate at the position of a result.  A bad result opens no
cooldown. -/
def record : ProbeResult → Candidate
  | some (rttMs, health) =>
      if health.isSelectable then { c with rttMs := some rttMs, cooldownUntil := none }
      else { c with rttMs := none }
  | none => { c with rttMs := none }

/-- The order of the ranking: cool ones last, then by round-trip time. -/
def compare (now : ℕ) (a b : Candidate) : Ordering :=
  match a.isCool now, b.isCool now with
  | false, true => .lt
  | true, false => .gt
  | _, _ => Ord.compare (a.rttMs.getD 0xffffffffffffffff) (b.rttMs.getD 0xffffffffffffffff)

end Candidate

structure Inner where
  candidates : List Candidate
  initialized : Bool

namespace Inner

variable (inner : Inner)

def liveUrls (now : ℕ) : List String :=
  (inner.candidates.filter fun c => !c.isCool now).map Candidate.baseUrl

def needsProbe (now : ℕ) : Bool :=
  !inner.initialized || !inner.candidates.any fun c => !c.isCool now

/-- `mark_failure` and `mark_success` set the cooldown of the candidates with a URL. -/
def setCooldown (baseUrl : String) (until? : Option ℕ) : Inner :=
  { inner with candidates := inner.candidates.map fun c =>
      if c.baseUrl = baseUrl then { c with cooldownUntil := until? } else c }

/-- The map of `replace_directory` from URLs to candidates: of several with one URL the last. -/
def existing : List Candidate := inner.candidates.pwFilter fun a b => a.baseUrl ≠ b.baseUrl

/-- `replace_directory` with the base URLs of the fresh edges; `order` is the order in which the map
lists its values. -/
def replaceDirectory (order : List Candidate → List Candidate) (fresh : List String) : Inner :=
  let candidates := fresh.map fun baseUrl =>
    (inner.existing.find? fun c => c.baseUrl = baseUrl).getD (.new baseUrl)
  if candidates.isEmpty then { inner with candidates := order inner.existing }
  else { inner with candidates := candidates }

end Inner

/-- The loop of `probe_all` over the results: the candidates afterwards, and whether each result
found one at its index. -/
def recordResults : List Candidate → List ProbeResult → List Candidate × Bool
  | cs, [] => (cs, true)
  | [], _ :: _ => ([], false)
  | c :: cs, result :: results =>
      let rest := recordResults cs results
      (c.record result :: rest.1, rest.2)

/-! ## The selector -/

/-- What a `probe_all` that has come back has found and left. -/
structure Finish where
  /-- Its probes, each with the URL it has asked. -/
  probes : List (String × ProbeResult)
  before : List Candidate
  after : List Candidate

structure EdgeSelector where
  inner : Inner
  /-- A thread has panicked with the mutex in its hands. -/
  poisoned : Bool
  clockReads : ℕ
  probesMade : ℕ
  requestsSent : ℕ
  /-- Not in the source: what has become of each `probe_all` so far. -/
  finishes : List Finish

def EdgeSelector.new (bootstrap : List String) : EdgeSelector where
  inner := ⟨bootstrap.map Candidate.new, false⟩
  poisoned := false
  clockReads := 0
  probesMade := 0
  requestsSent := 0
  finishes := []

inductive ShardError
  | invalidInput (message : String)
  | unauthorized (message : String)
  | forbidden (message : String)
  | notFound (message : String)
  | insufficientFunds (balance availableBalance limit : Int64) (holdBlocking : Bool)
      (hint : Option String)
  | paymentRequired
  | serviceUnavailable (message : String)
  | requestTimeout
  | decode (message : String)
  | network (message : String)

def ShardError.isRetryable : ShardError → Bool
  | .serviceUnavailable _ | .requestTimeout | .network _ => true
  | _ => false

/-- How a call ends that does not succeed. -/
inductive Stop
  | error (e : ShardError)
  /-- An index out of range, or the `unwrap` of a poisoned lock. -/
  | panicked

/-- An answer to a probe. -/
inductive HealthReply
  /-- A timeout or a network error. -/
  | failed
  | response (status elapsedMs : ℕ) (health : Option EdgeHealth)

/-- An answer to a request. -/
inductive Reply (R : Type)
  | response (result : Except ShardError R)
  | timedOut
  | failed (message : String)

/-- What the client meets: the clock, the answer to its `n`-th probe and to its `n`-th request. -/
structure World (R : Type) where
  clock : ℕ → ℕ
  health : ℕ → String → HealthReply
  reply : ℕ → String → Reply R

def probeOne (reply : HealthReply) : ProbeResult :=
  match reply with
  | .failed => none
  | .response status elapsedMs health =>
      if 200 ≤ status ∧ status < 300 then
        health.map fun health => (UInt64.ofNat (min elapsedMs 0xffffffffffffffff), health)
      else none

/-- `trim_end_matches('/')`. -/
def trimEndSlashes (url : String) : String := String.ofList (url.toList.rdropWhile (· = '/'))

namespace EdgeSelector

variable {R : Type} (world : World R) (s : EdgeSelector)

/-- The results of the probes of `urls`. -/
def probe (urls : List String) : List ProbeResult :=
  urls.mapIdx fun i url =>
    probeOne (world.health (s.probesMade + i) (trimEndSlashes url ++ "/gateway/health"))

/-- `probe_all` from the moment it has its results and takes the lock again. -/
def finishProbe (urls : List String) : Except Stop Unit × EdgeSelector :=
  let results := s.probe world urls
  let now := world.clock s.clockReads
  let recorded := recordResults s.inner.candidates results
  let after :=
    if recorded.2 then sortBy (Candidate.compare now) recorded.1 else recorded.1
  (if recorded.2 then .ok ⟨⟩ else .error .panicked,
    { s with
      inner := { candidates := after, initialized := true }
      poisoned := !recorded.2
      clockReads := s.clockReads + 1
      probesMade := s.probesMade + urls.length
      finishes := s.finishes ++
        [{ probes := urls.zip results, before := s.inner.candidates, after := after }] })

end EdgeSelector

/-! ## The calls -/

/-- Where a call lets others run. -/
inductive Point
  | start
  /-- Before it takes the lock. -/
  | lock
  /-- While its probes of these URLs are under way, and up to the lock after them. -/
  | probing (urls : List String)
  | sending

abbrev SelectorM := ExceptT Stop (Proc EdgeSelector Point)

/-- A critical section of the mutex. -/
def locked {α : Type} (l : Point) (f : EdgeSelector → Except Stop α × EdgeSelector) :
    SelectorM α := ExceptT.mk do
  Proc.suspend l
  Proc.readUpdate fun s => if s.poisoned then (.error .panicked, s) else f s

section Calls

variable {R : Type} (world : World R)

def instantNow : SelectorM ℕ :=
  (Proc.readUpdate fun s => (world.clock s.clockReads, { s with clockReads := s.clockReads + 1 }) :
    Proc EdgeSelector Point ℕ)

def liveUrls : SelectorM (List String) := do
  let now ← instantNow world
  locked .lock fun s => (.ok (s.inner.liveUrls now), s)

def needsProbe : SelectorM Bool := do
  let now ← instantNow world
  locked .lock fun s => (.ok (s.inner.needsProbe now), s)

def markFailure (baseUrl : String) : SelectorM Unit :=
  locked .lock fun s =>
    let until? := world.clock s.clockReads + cooldownMs
    (.ok ⟨⟩, { s with
      inner := s.inner.setCooldown baseUrl (some until?)
      clockReads := s.clockReads + 1 })

def markSuccess (baseUrl : String) : SelectorM Unit :=
  locked .lock fun s => (.ok ⟨⟩, { s with inner := s.inner.setCooldown baseUrl none })

def replaceDirectory (order : List Candidate → List Candidate) (fresh : List String) :
    SelectorM Unit :=
  locked .lock fun s => (.ok ⟨⟩, { s with inner := s.inner.replaceDirectory order fresh })

def probeAll : SelectorM Unit := do
  let urls ← locked .lock fun s => (.ok (s.inner.candidates.map Candidate.baseUrl), s)
  if urls.isEmpty then
    throw (.error (.serviceUnavailable "no edges configured"))
  locked (.probing urls) fun s => s.finishProbe world urls

def ensureProbed : SelectorM Unit := do
  if ← needsProbe world then probeAll world

def send (url : String) : SelectorM (Reply R) := do
  (Proc.suspend .sending : Proc EdgeSelector Point Unit)
  (Proc.readUpdate fun s => (world.reply s.requestsSent url,
    { s with requestsSent := s.requestsSent + 1 }) : Proc EdgeSelector Point (Reply R))

/-- The loop of a request over the candidates. -/
def failover (path : String) : List String → Option ShardError → SelectorM R
  | [], lastErr =>
      throw (.error (lastErr.getD
        (.serviceUnavailable "failover exhausted with no error captured")))
  | base :: rest, _ => do
      match ← send world (trimEndSlashes base ++ path) with
      | .response (.ok value) =>
          markSuccess base
          return value
      | .response (.error err) =>
          if err.isRetryable then
            markFailure world base
            failover path rest (some err)
          else
            throw (.error err)
      | .timedOut =>
          markFailure world base
          failover path rest (some .requestTimeout)
      | .failed message =>
          markFailure world base
          failover path rest (some (.network message))

/-- `request_json_with_status`; the method, the body and the query only shape what is sent. -/
def requestJson (path : String) : SelectorM R := do
  ensureProbed world
  let urls ← liveUrls world
  if urls.isEmpty then probeAll world
  let urls ← liveUrls world
  if urls.isEmpty then
    throw (.error (.serviceUnavailable "all edges unhealthy"))
  failover world path (urls.take 3) none

/-- What may run on a client: requests, probes, and replacements of the directory. -/
inductive Runs : SelectorM Unit → Prop
  | probeAll : Runs (probeAll world)
  | request (path : String) : Runs (do let _ ← requestJson world path)
  | replaceDirectory (order : List Candidate → List Candidate) (horder : ∀ l, (order l).Perm l)
      (fresh : List String) : Runs (replaceDirectory order fresh)

/-- Every interleaving of any number of calls. -/
def scheduler : Scheduler EdgeSelector Point (Except Stop Unit) where
  ready _ _ := true
  enter _ s := s
  starts l t := l = .start ∧ ∃ call, Runs world call ∧ t = call.run

end Calls

/-! ## Attribution -/

/-- From `c` to `c'` nothing has changed, or a result for the URL of `c` has been recorded. -/
def Candidate.Probed (probes : List (String × ProbeResult)) (c c' : Candidate) : Prop :=
  c' = c ∨ ∃ result, (c.baseUrl, result) ∈ probes ∧ c' = c.record result

/-- The list has been re-ranked with each result recorded for a candidate with the URL that was
asked; the candidates are the same as before. -/
structure Finish.Attributed (f : Finish) : Prop where
  kept : ∃ recorded, List.Forall₂ (Candidate.Probed f.probes) f.before recorded ∧
    recorded.Perm f.after
  landed : ∀ p ∈ f.probes, ∃ c ∈ f.before, c.baseUrl = p.1 ∧ c.record p.2 ∈ f.after

structure EdgeSelector.Attributed (s : EdgeSelector) : Prop where
  alive : s.poisoned = false
  finishes : ∀ f ∈ s.finishes, f.Attributed
  /-- A round-trip time is that of a good probe of the same URL. -/
  measured : ∀ c ∈ s.inner.candidates, ∀ rttMs, c.rttMs = some rttMs →
    ∃ f ∈ s.finishes, ∃ health, health.isSelectable = true ∧
      (c.baseUrl, some (rttMs, health)) ∈ f.probes

/-- When `probe_all` comes back, the list still begins with the URLs it has probed. -/
def StillRanked : Point → EdgeSelector → Prop
  | .probing urls, s => urls <+: s.inner.candidates.map Candidate.baseUrl
  | _, _ => True

instance (l : Point) (s : EdgeSelector) : Decidable (StillRanked l s) :=
  match l with
  | .probing urls => inferInstanceAs (Decidable (urls <+: s.inner.candidates.map Candidate.baseUrl))
  | .start | .lock | .sending => inferInstanceAs (Decidable True)

/-! ## What the sections of the mutex keep -/

namespace Candidate

variable {c c' : Candidate} {probes probes' : List (String × ProbeResult)} {result : ProbeResult}

@[simp] lemma baseUrl_record : (c.record result).baseUrl = c.baseUrl := by
  unfold record
  split
  · split <;> rfl
  · rfl

/-- A round-trip time is recorded off a good result only. -/
lemma rttMs_record {rttMs : UInt64} (h : (c.record result).rttMs = some rttMs) :
    ∃ health : EdgeHealth, health.isSelectable = true ∧ result = some (rttMs, health) := by
  unfold record at h
  split at h
  · rename_i rttMs' health
    split at h
    · rename_i hselectable
      obtain rfl : rttMs' = rttMs := Option.some.inj h
      exact ⟨health, hselectable, rfl⟩
    · cases h
  · cases h

lemma Probed.baseUrl (h : Probed probes c c') : c'.baseUrl = c.baseUrl := by
  rcases h with rfl | ⟨result, -, rfl⟩
  · rfl
  · exact baseUrl_record

lemma Probed.mono (h : Probed probes c c') (hsub : probes ⊆ probes') : Probed probes' c c' := by
  rcases h with rfl | ⟨result, hresult, rfl⟩
  · exact .inl rfl
  · exact .inr ⟨result, hsub hresult, rfl⟩

end Candidate

lemma exists_of_forall₂ {α β : Type} {r : α → β → Prop} {l : List α} {l' : List β}
    (h : List.Forall₂ r l l') {b : β} (hb : b ∈ l') : ∃ a ∈ l, r a b := by
  induction h with
  | nil => cases hb
  | @cons a b' l l' hab _ ih =>
      rcases List.mem_cons.1 hb with rfl | hb
      · exact ⟨a, List.mem_cons_self, hab⟩
      · obtain ⟨a', ha', hr⟩ := ih hb
        exact ⟨a', List.mem_cons_of_mem a ha', hr⟩

/-- With the probed URLs in front, every result finds a candidate of its own. -/
lemma recordResults_spec {urls : List String} {results : List ProbeResult} {cs : List Candidate}
    (hlength : results.length = urls.length) (hurls : urls <+: cs.map Candidate.baseUrl) :
    ∃ recorded, recordResults cs results = (recorded, true) ∧
      List.Forall₂ (Candidate.Probed (urls.zip results)) cs recorded ∧
      ∀ p ∈ urls.zip results, ∃ c ∈ cs, c.baseUrl = p.1 ∧ c.record p.2 ∈ recorded := by
  induction urls generalizing results cs with
  | nil =>
      obtain rfl := List.length_eq_zero_iff.1 hlength
      refine ⟨cs, by cases cs <;> rfl, ?_, fun p hp => absurd hp List.not_mem_nil⟩
      exact List.forall₂_same.2 fun c _ => .inl rfl
  | cons url urls ih =>
      cases results with
      | nil => cases hlength
      | cons result results =>
          cases cs with
          | nil => exact absurd hurls (by simp)
          | cons c cs =>
              rw [List.map_cons, List.cons_prefix_cons] at hurls
              obtain ⟨rfl, hurls⟩ := hurls
              obtain ⟨recorded, hrecorded, hprobed, hlanded⟩ :=
                ih (Nat.succ.inj hlength) hurls
              refine ⟨c.record result :: recorded, ?_, ?_, ?_⟩
              · rw [recordResults, hrecorded]
              · refine .cons (.inr ⟨result, List.mem_cons_self, rfl⟩) ?_
                exact hprobed.imp fun _ _ h => h.mono (List.subset_cons_self _ _)
              · intro p hp
                rcases List.mem_cons.1 hp with rfl | hp
                · exact ⟨c, List.mem_cons_self, rfl, List.mem_cons_self⟩
                · obtain ⟨c', hc', hurl, hmem⟩ := hlanded p hp
                  exact ⟨c', List.mem_cons_of_mem _ hc', hurl, List.mem_cons_of_mem _ hmem⟩

namespace EdgeSelector.Attributed

variable {R : Type} {world : World R} {s s' : EdgeSelector}

/-- A section that probes nothing keeps the property if every candidate it leaves has its URL and
its round-trip time from one that was there, or no round-trip time. -/
lemma congr (h : s.Attributed) (hpoisoned : s'.poisoned = s.poisoned)
    (hfinishes : s'.finishes = s.finishes)
    (hcandidates : ∀ c' ∈ s'.inner.candidates, c'.rttMs = none ∨
      ∃ c ∈ s.inner.candidates, c'.baseUrl = c.baseUrl ∧ c'.rttMs = c.rttMs) :
    s'.Attributed where
  alive := hpoisoned.trans h.alive
  finishes := by
    rw [hfinishes]
    exact h.finishes
  measured c' hc' rttMs hrtt := by
    rcases hcandidates c' hc' with hnone | ⟨c, hc, hurl, hsame⟩
    · rw [hnone] at hrtt
      cases hrtt
    · rw [hfinishes, hurl]
      exact h.measured c hc rttMs (hsame.symm.trans hrtt)

lemma setCooldown (h : s.Attributed) (baseUrl : String) (until? : Option ℕ) (n : ℕ) :
    { s with inner := s.inner.setCooldown baseUrl until?, clockReads := n }.Attributed := by
  refine h.congr rfl rfl fun c' hc' => ?_
  obtain ⟨c, hc, rfl⟩ := List.mem_map.1 hc'
  refine .inr ⟨c, hc, ?_⟩
  split <;> exact ⟨rfl, rfl⟩

lemma replaceDirectory (h : s.Attributed) {order : List Candidate → List Candidate}
    (horder : ∀ l, (order l).Perm l) (fresh : List String) :
    { s with inner := s.inner.replaceDirectory order fresh }.Attributed := by
  have hsub : ∀ c ∈ s.inner.existing, c ∈ s.inner.candidates := fun c hc =>
    (List.pwFilter_sublist _).subset hc
  refine h.congr rfl rfl fun c' hc' => ?_
  dsimp only [Inner.replaceDirectory] at hc'
  split at hc'
  · exact .inr ⟨c', hsub c' ((horder _).mem_iff.1 hc'), rfl, rfl⟩
  · obtain ⟨url, -, rfl⟩ := List.mem_map.1 hc'
    cases hfind : s.inner.existing.find? fun c => c.baseUrl = url with
    | none => exact .inl rfl
    | some c => exact .inr ⟨c, hsub c (List.mem_of_find?_eq_some hfind), rfl, rfl⟩

variable (world) in
/-- The step that needs the condition. -/
lemma finishProbe (h : s.Attributed) {urls : List String}
    (hurls : urls <+: s.inner.candidates.map Candidate.baseUrl) :
    (s.finishProbe world urls).1 = .ok ⟨⟩ ∧ (s.finishProbe world urls).2.Attributed := by
  have hlength : (s.probe world urls).length = urls.length := List.length_mapIdx
  obtain ⟨recorded, hrecorded, hprobed, hlanded⟩ := recordResults_spec hlength hurls
  have hperm : recorded.Perm (sortBy (Candidate.compare (world.clock s.clockReads)) recorded) :=
    (sortBy_perm recorded).symm
  unfold EdgeSelector.finishProbe
  simp only [hrecorded, if_true, Bool.not_true]
  refine ⟨trivial, rfl, fun f hf => ?_, fun c' hc' rttMs hrtt => ?_⟩
  · rcases List.mem_append.1 hf with hf | hf
    · exact h.finishes f hf
    · obtain rfl := List.mem_singleton.1 hf
      refine ⟨⟨recorded, hprobed, hperm⟩, fun p hp => ?_⟩
      obtain ⟨c, hc, hurl, hmem⟩ := hlanded p hp
      exact ⟨c, hc, hurl, hperm.mem_iff.1 hmem⟩
  · have hmem : c' ∈ recorded := hperm.mem_iff.2 hc'
    obtain ⟨c, hc, hcc'⟩ := exists_of_forall₂ hprobed hmem
    rcases hcc' with rfl | ⟨result, hresult, rfl⟩
    · obtain ⟨f, hf, hmeasured⟩ := h.measured _ hc rttMs hrtt
      exact ⟨f, List.mem_append_left _ hf, hmeasured⟩
    · obtain ⟨health, hselectable, rfl⟩ := Candidate.rttMs_record hrtt
      refine ⟨_, List.mem_append_right _ (List.mem_singleton_self _), health, hselectable, ?_⟩
      rw [Candidate.baseUrl_record]
      exact hresult

end EdgeSelector.Attributed

/-! ## What the calls keep -/

def attributedContract : Contract EdgeSelector Point where
  inv := EdgeSelector.Attributed
  guar _ _ _ := True
  absent _ _ := True
  pause _ _ _ := True

/-- The call keeps the property from one suspension to the next, and does not panic. -/
structure Keeps {α : Type} (t : SelectorM α) : Prop where
  wp : ∀ (i : ℕ) (s₀ s : EdgeSelector), s.Attributed →
    t.run.wp (fun _ _ => true) (fun _ s => s) attributedContract StillRanked i
      (fun r _ s' => s'.Attributed ∧ r ≠ .error .panicked) s₀ s

namespace Keeps

variable {α β : Type} {R : Type} {world : World R}

protected lemma pure (a : α) : Keeps (pure a : SelectorM α) :=
  ⟨fun _ _ _ hs => ⟨hs, by simp⟩⟩

lemma error (e : ShardError) : Keeps (throw (.error e) : SelectorM α) :=
  ⟨fun _ _ _ hs => ⟨hs, by simp⟩⟩

protected lemma bind {t : SelectorM α} {k : α → SelectorM β} (ht : Keeps t)
    (hk : ∀ a, Keeps (k a)) : Keeps (t >>= k) where
  wp i s₀ s hs := by
    apply Proc.wp_run_bind
    refine Proc.wp_mono (fun r s₀' s' hr => ?_) (ht.wp i s₀ s hs)
    cases r with
    | ok a => exact (hk a).wp i s₀' s' hr.1
    | error e => exact ⟨hr.1, fun h => hr.2 (by rw [Except.error.inj h])⟩

/-- A critical section. -/
lemma locked {l : Point} {f : EdgeSelector → Except Stop α × EdgeSelector}
    (hf : ∀ s, s.Attributed → StillRanked l s →
      (f s).2.Attributed ∧ (f s).1 ≠ .error .panicked) : Keeps (locked l f) where
  wp i s₀ s hs := by
    refine ⟨hs, trivial, fun _ => True, Contract.Stable.true _ _, trivial, fun _ _ _ => trivial,
      fun s' hs' _ _ hranked => ?_⟩
    have halive : (if s'.poisoned then (.error .panicked, s') else f s') = f s' :=
      if_neg (by simp [hs'.alive])
    show (if s'.poisoned then (.error .panicked, s') else f s').2.Attributed ∧
      (if s'.poisoned then (.error .panicked, s') else f s').1 ≠ .error .panicked
    rw [halive]
    exact hf s' hs' hranked

/-- What is done without the mutex. -/
lemma lift {t : Proc EdgeSelector Point α}
    (ht : ∀ (i : ℕ) (s₀ s : EdgeSelector), s.Attributed →
      t.wp (fun _ _ => true) (fun _ s => s) attributedContract StillRanked i
        (fun _ _ s' => s'.Attributed) s₀ s) : Keeps (liftM t : SelectorM α) where
  wp i s₀ s hs := by
    apply Proc.wp_run_lift
    exact Proc.wp_mono (fun _ _ _ h => ⟨h, by simp⟩) (ht i s₀ s hs)

variable (world)

protected lemma instantNow : Keeps (instantNow world) := by
  refine lift fun i s₀ s hs => ?_
  show EdgeSelector.Attributed _
  exact hs.congr rfl rfl fun c hc => .inr ⟨c, hc, rfl, rfl⟩

protected lemma liveUrls : Keeps (liveUrls world) :=
  (Keeps.instantNow world).bind fun _ => locked fun _ hs _ => ⟨hs, by simp⟩

protected lemma needsProbe : Keeps (needsProbe world) :=
  (Keeps.instantNow world).bind fun _ => locked fun _ hs _ => ⟨hs, by simp⟩

protected lemma markFailure (baseUrl : String) : Keeps (markFailure world baseUrl) :=
  locked fun _ hs _ => ⟨hs.setCooldown baseUrl _ _, by simp⟩

protected lemma markSuccess (baseUrl : String) : Keeps (markSuccess baseUrl) :=
  locked fun s hs _ => ⟨hs.setCooldown baseUrl none s.clockReads, by simp⟩

protected lemma replaceDirectory {order : List Candidate → List Candidate}
    (horder : ∀ l, (order l).Perm l) (fresh : List String) :
    Keeps (replaceDirectory order fresh) :=
  locked fun _ hs _ => ⟨hs.replaceDirectory horder fresh, by simp⟩

/-- The results are recorded where the condition holds. -/
lemma finishProbe (urls : List String) :
    Keeps (Sdk.locked (.probing urls) fun s => s.finishProbe world urls) :=
  locked fun s hs hranked => by
    obtain ⟨hok, hattributed⟩ := hs.finishProbe world hranked
    rw [hok]
    exact ⟨hattributed, by simp⟩

protected lemma probeAll : Keeps (probeAll world) := by
  refine Keeps.bind (locked fun _ hs _ => ⟨hs, by simp⟩) fun urls => ?_
  split
  · exact (error _).bind fun _ => finishProbe world urls
  · exact finishProbe world urls

protected lemma ensureProbed : Keeps (ensureProbed world) := by
  refine (Keeps.needsProbe world).bind fun needed => ?_
  split
  · exact Keeps.probeAll world
  · exact Keeps.pure _

protected lemma send (url : String) : Keeps (send world url) := by
  refine (lift fun i s₀ s hs => ?_).bind fun _ => lift fun i s₀ s hs => ?_
  · exact Proc.wp_suspend ⟨hs, trivial, fun _ => True, Contract.Stable.true _ _, trivial,
      fun _ _ _ => trivial, fun _ hs' _ _ _ => hs'⟩
  · show EdgeSelector.Attributed _
    exact hs.congr rfl rfl fun c hc => .inr ⟨c, hc, rfl, rfl⟩

protected lemma failover (path : String) (urls : List String) (lastErr : Option ShardError) :
    Keeps (failover world path urls lastErr) := by
  induction urls generalizing lastErr with
  | nil => exact error _
  | cons base rest ih =>
      refine (Keeps.send world _).bind fun reply => ?_
      rcases reply with (err | value) | - | message
      · dsimp only
        split
        · exact (Keeps.markFailure world base).bind fun _ => ih _
        · exact error _
      · exact (Keeps.markSuccess base).bind fun _ => Keeps.pure value
      · exact (Keeps.markFailure world base).bind fun _ => ih _
      · exact (Keeps.markFailure world base).bind fun _ => ih _

protected lemma requestJson (path : String) : Keeps (requestJson world path) := by
  have htry : ∀ urls : List String, Keeps (do
      if urls.isEmpty then
        throw (.error (.serviceUnavailable "all edges unhealthy"))
      failover world path (urls.take 3) none) := by
    intro urls
    dsimp only
    split
    · exact (error _).bind fun _ => Keeps.failover world path _ none
    · exact Keeps.failover world path _ none
  refine (Keeps.ensureProbed world).bind fun _ => (Keeps.liveUrls world).bind fun urls => ?_
  split
  · exact (Keeps.probeAll world).bind fun _ => (Keeps.liveUrls world).bind htry
  · exact (Keeps.liveUrls world).bind htry

/-- Every call that may run. -/
lemma of_runs {call : SelectorM Unit} (h : Runs world call) : Keeps call := by
  cases h with
  | probeAll => exact Keeps.probeAll world
  | request path => exact (Keeps.requestJson world path).bind fun _ => Keeps.pure _
  | replaceDirectory order horder fresh => exact Keeps.replaceDirectory horder fresh

end Keeps

/-! ## Runs -/

section Runs

variable {R : Type} (world : World R)

lemma startsKept : Pool.StartsKept (scheduler world) attributedContract StillRanked
    fun _ r _ => r ≠ .error .panicked where
  absent i := Contract.Stable.true _ i
  stable _ _ _ _ _ _ h _ := h
  pause _ _ _ _ _ _ _ := trivial
  start l t hstarts i s hs _ _ _ := by
    obtain ⟨-, call, hruns, rfl⟩ := hstarts
    refine Proc.wp_mono (fun _ _ _ h => ?_) ((Keeps.of_runs world hruns).wp i s s hs)
    exact ⟨h.1, trivial, h.2⟩

lemma attributed_new (bootstrap : List String) : (EdgeSelector.new bootstrap).Attributed where
  alive := rfl
  finishes _ hf := absurd hf List.not_mem_nil
  measured c hc _ hrtt := by
    obtain ⟨url, -, rfl⟩ := List.mem_map.1 hc
    cases hrtt

/-- **Attribution.**  In every run in which each `probe_all` comes back to a list that still begins
with the URLs it has probed, every round-trip time is that of a probe of the same URL, no result is
recorded elsewhere, no candidate gets lost or doubled in a ranking, and nothing panics. -/
theorem attributed_of_run (bootstrap : List String)
    {p : Pool EdgeSelector Point (Except Stop Unit)}
    (h : Pool.Reach (scheduler world) StillRanked (.new bootstrap) p) :
    p.shared.Attributed ∧ ∀ i, p.calls i ≠ .finished (.error .panicked) := by
  have hsound := Pool.sound_of_reach (startsKept world) (attributed_new bootstrap)
    (fun _ => trivial) h
  exact ⟨hsound.inv, fun i hi => hsound.finished i _ hi rfl⟩

end Runs

/-- A world in which the edge `a` is down and the others answer. -/
def World.downEdge : World Unit where
  clock n := n
  health n url :=
    if url = "https://a/gateway/health" then .failed
    else .response 200 n (some { ready := true, overloaded := none, syncGap := some 0 })
  reply _ _ := .response (.ok ())

/-- Two probes at the same time. -/
def concurrentProbes : List (Pool.Move EdgeSelector Point (Except Stop Unit)) :=
  [.start 0 .start (probeAll World.downEdge).run, .start 1 .start (probeAll World.downEdge).run,
    .resume 0, .resume 0, .resume 1, .resume 1, .resume 0, .resume 1]

lemma fair_concurrentProbes :
    ∀ m ∈ concurrentProbes, m.Fair (scheduler World.downEdge) := by
  have hprobe : (scheduler World.downEdge).starts .start (probeAll World.downEdge).run :=
    ⟨rfl, _, .probeAll, rfl⟩
  simp only [concurrentProbes, List.forall_mem_cons]
  exact ⟨hprobe, hprobe, trivial, trivial, trivial, trivial, trivial, trivial, by simp⟩

/-- The edge in front is up, so that the first probe changes nothing about the order: the second
finds the list it has probed. -/
theorem attributed_of_run_concurrent :
    ∃ p, Pool.Reach (scheduler World.downEdge) StillRanked (.new ["https://b", "https://a"]) p ∧
      p.shared.finishes.length = 2 ∧ p.shared.Attributed ∧
      ∀ i, p.calls i ≠ .finished (.error .panicked) := by
  let urls := ["https://b", "https://a"]
  let s₁ := ((EdgeSelector.new urls).finishProbe World.downEdge urls).2
  let p₁ := Pool.play (scheduler World.downEdge) StillRanked ⟨.new urls, fun _ => .absent⟩
    (concurrentProbes.take 7)
  have hreach₁ : Pool.Reach (scheduler World.downEdge) StillRanked (.new urls) p₁ :=
    Pool.Reach.init.play fun m hm => fair_concurrentProbes m (List.mem_of_mem_take hm)
  obtain ⟨hs₁, t, hwait, hsegment⟩ : p₁.shared = s₁ ∧
      ∃ t, p₁.calls 1 = .waiting (.probing urls) t ∧ ∀ s, (t.segment s).2 =
        (if s.poisoned then (.error .panicked, s) else s.finishProbe World.downEdge urls).2 :=
    ⟨rfl, _, rfl, fun _ => rfl⟩
  have hcandidates : s₁.inner.candidates =
      [⟨"https://b", some 0, none⟩, ⟨"https://a", none, none⟩] := by
    show sortBy (Candidate.compare 0) [⟨"https://b", some 0, none⟩, ⟨"https://a", none, none⟩] = _
    rw [sortBy_pair]
    rfl
  have hranked : StillRanked (.probing urls) p₁.shared := by
    show urls <+: p₁.shared.inner.candidates.map Candidate.baseUrl
    rw [hs₁, hcandidates]
    exact List.prefix_rfl
  have hreach := hreach₁.step (.resume 1 (.probing urls) t hwait rfl hranked)
  refine ⟨_, hreach, ?_, attributed_of_run World.downEdge urls hreach⟩
  show (t.segment p₁.shared).2.finishes.length = 2
  rw [hsegment, hs₁]
  rfl

/-- The edge in front is down.  The first probe moves it back, and the second one gives it the
round-trip time of the other: it is ranked first, though none of its probes has succeeded. -/
theorem not_attributed_concurrent :
    let p := Pool.play (scheduler World.downEdge) (fun _ _ => True)
      ⟨.new ["https://a", "https://b"], fun _ => .absent⟩ concurrentProbes
    Pool.Reach (scheduler World.downEdge) (fun _ _ => True) (.new ["https://a", "https://b"]) p ∧
      p.shared.inner.candidates =
        [⟨"https://a", some 3, none⟩, ⟨"https://b", none, none⟩] ∧
      (∀ f ∈ p.shared.finishes, ∀ probe ∈ f.probes, probe.1 = "https://a" → probe.2 = none) ∧
      ¬ p.shared.Attributed := by
  intro p
  let urls := ["https://a", "https://b"]
  let s₁ := ((EdgeSelector.new urls).finishProbe World.downEdge urls).2
  have hp : p.shared = (s₁.finishProbe World.downEdge urls).2 := rfl
  have hs₁ : s₁.inner.candidates = [⟨"https://b", some 1, none⟩, ⟨"https://a", none, none⟩] := by
    show sortBy (Candidate.compare 0) [⟨"https://a", none, none⟩, ⟨"https://b", some 1, none⟩] = _
    rw [sortBy_pair]
    rfl
  have hcandidates : p.shared.inner.candidates =
      [⟨"https://a", some 3, none⟩, ⟨"https://b", none, none⟩] := by
    rw [hp]
    unfold EdgeSelector.finishProbe
    rw [hs₁]
    show sortBy (Candidate.compare 1) [⟨"https://b", none, none⟩, ⟨"https://a", some 3, none⟩] = _
    rw [sortBy_pair]
    rfl
  have hdown : ∀ f ∈ p.shared.finishes, ∀ probe ∈ f.probes,
      probe.1 = "https://a" → probe.2 = none := by
    have hprobes : p.shared.finishes.map Finish.probes =
        [[("https://a", none), ("https://b", some (1, ⟨true, none, some 0⟩))],
          [("https://a", none), ("https://b", some (3, ⟨true, none, some 0⟩))]] := rfl
    intro f hf
    have hmem : f.probes ∈ p.shared.finishes.map Finish.probes := List.mem_map_of_mem hf
    rw [hprobes] at hmem
    rcases List.mem_pair.1 hmem with hf | hf <;> rw [hf] <;> decide
  refine ⟨Pool.Reach.init.play fair_concurrentProbes, hcandidates, hdown, fun h => ?_⟩
  obtain ⟨f, hf, health, -, hprobe⟩ := h.measured ⟨"https://a", some 3, none⟩
    (by rw [hcandidates]; exact List.mem_cons_self) 3 rfl
  exact absurd (hdown f hf _ hprobe rfl) (by simp)

end Shardd.Sdk
