import Mathlib.Logic.Relation
import Shardd.Lib.Text
import Shardd.Recovery.Lifetime

/-!
# Catch-up (`server.rs`, §4.2)

Every few seconds a node asks each of its peers for its heads, and for every key at which the peer
is ahead it fetches the next 5000 events at most and inserts them one by one.  Heads travel under a
text that joins bucket, origin and epoch.

A round brings a key forward by what it was to bring, whatever else the node does meanwhile, exactly
when the text of the key can be read back, that is when neither its bucket nor its origin holds the
separator.
-/

namespace Shardd

variable {D : Type}

/-! ## The wire format of heads -/

def encodeHeadKey (key : EpochKey) : String :=
  key.1 ++ "\t" ++ key.2.1 ++ ":" ++ toString key.2.2

def decodeHeadKey (text : String) : Option EpochKey := do
  let (bucket, originEpoch) ← splitOnce '\t' text.toList
  let (origin, epoch) ← rsplitOnce ':' originEpoch
  let epoch ← parseUnsigned (2 ^ 32) epoch
  some (String.ofList bucket, String.ofList origin, epoch)

/-- Neither the bucket nor the origin holds the separator. -/
def EpochKey.TabFree (key : EpochKey) : Prop := '\t' ∉ key.1.toList ∧ '\t' ∉ key.2.1.toList

instance (key : EpochKey) : Decidable key.TabFree := inferInstanceAs (Decidable (_ ∧ _))

lemma toList_encodeHeadKey (key : EpochKey) :
    (encodeHeadKey key).toList =
      key.1.toList ++ '\t' :: (key.2.1.toList ++ ':' :: Nat.toDigits 10 key.2.2) := by
  have htab : "\t".toList = ['\t'] := rfl
  have hcolon : ":".toList = [':'] := rfl
  have hdigits : (toString key.2.2).toList = Nat.toDigits 10 key.2.2 := Nat.toList_repr
  rw [encodeHeadKey, String.toList_append, String.toList_append, String.toList_append,
    String.toList_append, htab, hcolon, hdigits]
  simp

/-- What stands behind the first separator is read back. -/
lemma decode_parts {text : String} {bucket origin : List Char} {epoch : ℕ} (hbucket : '\t' ∉ bucket)
    (hepoch : epoch < 2 ^ 32)
    (h : text.toList = bucket ++ '\t' :: (origin ++ ':' :: Nat.toDigits 10 epoch)) :
    decodeHeadKey text = some (String.ofList bucket, String.ofList origin, epoch) := by
  have hfirst := splitOnce_eq_some_iff.2 ⟨h, hbucket⟩
  have hlast : rsplitOnce ':' (origin ++ ':' :: Nat.toDigits 10 epoch) =
      some (origin, Nat.toDigits 10 epoch) :=
    rsplitOnce_eq_some_iff.2 ⟨rfl, notMem_toDigits (by decide) epoch⟩
  have hnumber := parseUnsigned_toDigits hepoch
  simp only [decodeHeadKey, hfirst, hlast, hnumber, Option.bind_eq_bind, Option.bind_some]

/-- A key whose bucket holds no separator is read back. -/
lemma decode_encodeHeadKey {key : EpochKey} (hbucket : '\t' ∉ key.1.toList)
    (hepoch : key.2.2 < 2 ^ 32) : decodeHeadKey (encodeHeadKey key) = some key := by
  rw [decode_parts hbucket hepoch (toList_encodeHeadKey key), String.ofList_toList,
    String.ofList_toList]

/-- A bucket that is read back holds no separator. -/
lemma notMem_of_decode {text : String} {key : EpochKey} (h : decodeHeadKey text = some key) :
    '\t' ∉ key.1.toList := by
  simp only [decodeHeadKey, Option.bind_eq_bind, Option.bind_eq_some_iff] at h
  obtain ⟨⟨bucket, rest⟩, hfirst, ⟨origin, digits⟩, -, epoch, -, heq⟩ := h
  cases heq
  rw [String.toList_ofList]
  exact (splitOnce_eq_some_iff.1 hfirst).2

/-- No other key has the text of a key without separators. -/
lemma encodeHeadKey_inj_of_tabFree {key key' : EpochKey} (hkey : key.TabFree)
    (h : encodeHeadKey key' = encodeHeadKey key) : key' = key := by
  have hlist := congrArg String.toList h
  rw [toList_encodeHeadKey, toList_encodeHeadKey] at hlist
  have hcolon : ∀ n : ℕ, ':' ∉ Nat.toDigits 10 n := fun n => notMem_toDigits (by decide) n
  -- the separator occurs once, so the buckets are the same
  have hcount := congrArg (List.count '\t') hlist
  have hdigits : ∀ n : ℕ, (Nat.toDigits 10 n).count '\t' = 0 := fun n =>
    List.count_eq_zero.2 (notMem_toDigits (by decide) n)
  have hne : ':' ≠ '\t' := by decide
  simp only [List.count_append, List.count_cons_self, List.count_cons_of_ne hne, hdigits,
    List.count_eq_zero.2 hkey.1, List.count_eq_zero.2 hkey.2] at hcount
  have hbucket : '\t' ∉ key'.1.toList := List.count_eq_zero.1 (by omega)
  have hfirst := splitOnce_eq_some_iff.2 ⟨hlist.symm, hbucket⟩
  rw [splitOnce_eq_some_iff.2 ⟨rfl, hkey.1⟩] at hfirst
  obtain ⟨hb, hrest⟩ := Prod.mk.inj (Option.some.inj hfirst)
  have hlast := rsplitOnce_eq_some_iff.2 ⟨hrest.symm, hcolon key.2.2⟩
  rw [rsplitOnce_eq_some_iff.2 ⟨rfl, hcolon key'.2.2⟩] at hlast
  obtain ⟨ho, hn⟩ := Prod.mk.inj (Option.some.inj hlast)
  refine Prod.ext (String.toList_injective hb.symm) (Prod.ext (String.toList_injective ho) ?_)
  exact toDigits_injective hn

/-! ## A round -/

structure RangeRequest where
  bucket : String
  originNodeId : String
  originEpoch : ℕ
  fromSeq : ℕ
  toSeq : ℕ

def RangeRequest.key (req : RangeRequest) : EpochKey :=
  (req.bucket, req.originNodeId, req.originEpoch)

/-- The request for one of the peer's heads, if there is to be one. -/
def rangeRequest (localHeads : Map String ℕ) (entry : String × ℕ) : Option RangeRequest :=
  let myHead := (localHeads entry.1).getD 0
  if entry.2 ≤ myHead then none
  else (decodeHeadKey entry.1).map fun key =>
    { bucket := key.1, originNodeId := key.2.1, originEpoch := key.2.2
      fromSeq := myHead + 1, toSeq := min (myHead + 5000) entry.2 }

/-- What `get_heads` can answer: of several keys with one text, the head of any. -/
structure SharedState.GetHeads (s : SharedState D) (heads : Map String ℕ) : Prop where
  some : ∀ text n, heads text = some n → ∃ key, encodeHeadKey key = text ∧ s.heads key = some n
  total : ∀ key, s.heads key ≠ none → heads (encodeHeadKey key) ≠ none

section Round

variable (env : Env D) (E : Set Event) (base : List Event)

/-- Other operations of the node, one after the other. -/
abbrev Meanwhile : SharedState D → SharedState D → Prop :=
  Relation.ReflTransGen fun s s' => ∃ op, LifeStep env E base op s s'

/-- `insert_events_batch`, with other operations before, between and after the insertions. -/
inductive BatchInserted : List Event → SharedState D → SharedState D → Prop
  | nil {s s' : SharedState D} : Meanwhile env E base s s' → BatchInserted [] s s'
  | cons {e : Event} {es : List Event} {s s₁ s₂ s' : SharedState D} : Meanwhile env E base s s₁ →
      LifeStep env E base (.node (.insert e)) s₁ s₂ → BatchInserted es s₂ s' →
      BatchInserted (e :: es) s s'

/-- The loop over the peer's heads.  `answer` is what the peer answers to a range request, if it
answers. -/
inductive Fetched (localHeads : Map String ℕ) (answer : RangeRequest → Option (List Event)) :
    List (String × ℕ) → SharedState D → SharedState D → Prop
  | done {s s' : SharedState D} : Meanwhile env E base s s' → Fetched localHeads answer [] s s'
  | skip {entry : String × ℕ} {rest : List (String × ℕ)} {s s' : SharedState D} :
      rangeRequest localHeads entry = none → Fetched localHeads answer rest s s' →
      Fetched localHeads answer (entry :: rest) s s'
  | unanswered {entry : String × ℕ} {rest : List (String × ℕ)} {req : RangeRequest}
      {s s' : SharedState D} :
      rangeRequest localHeads entry = some req → answer req = none →
      Fetched localHeads answer rest s s' → Fetched localHeads answer (entry :: rest) s s'
  | answered {entry : String × ℕ} {rest : List (String × ℕ)} {req : RangeRequest}
      {events : List Event} {s s₁ s' : SharedState D} :
      rangeRequest localHeads entry = some req → answer req = some events →
      BatchInserted env E base events s s₁ → Fetched localHeads answer rest s₁ s' →
      Fetched localHeads answer (entry :: rest) s s'

/-- The events the peer has accepted are among these, and are of the world. -/
structure PeerOf (peer : SharedState D) (A : Finset Event) : Prop where
  log : LogOf env.hasher A peer
  world : ∀ e ∈ A, e ∈ E

/-- One round of catch-up with a peer that has accepted the events `A`; the request for `key`, if
there is one, is answered with all events the peer has of the range. -/
structure CatchUpRound (key : EpochKey) (peer : SharedState D) (A : Finset Event)
    (s s' : SharedState D) : Prop where
  round : ∃ (peerHeads localHeads : Map String ℕ) (entries : List (String × ℕ))
    (answer : RangeRequest → Option (List Event)) (s₁ : SharedState D),
    peer.GetHeads peerHeads ∧ (∀ text n, (text, n) ∈ entries ↔ peerHeads text = some n) ∧
    Meanwhile env E base s s₁ ∧ s₁.GetHeads localHeads ∧
    (∀ n req, (encodeHeadKey key, n) ∈ entries →
      rangeRequest localHeads (encodeHeadKey key, n) = some req →
      ∃ events, answer req = some events ∧ ∀ e ∈ A, e.epochKey = req.key →
        req.fromSeq ≤ e.originSeq → e.originSeq ≤ req.toSeq → e ∈ events) ∧
    Fetched env E base localHeads answer entries s₁ s'

/-- `k` rounds, each with a peer whose head of `key` is at least `H`. -/
inductive CatchUpRounds (key : EpochKey) (H : ℕ) : ℕ → SharedState D → SharedState D → Prop
  | zero {s : SharedState D} : CatchUpRounds key H 0 s s
  | succ {k : ℕ} {peer : SharedState D} {A : Finset Event} {s s₁ s' : SharedState D} :
      CatchUpRounds key H k s s₁ → PeerOf env E peer A → H ≤ peer.head key →
      CatchUpRound env E base key peer A s₁ s' → CatchUpRounds key H (k + 1) s s'

end Round

/-! ## What is kept over a round -/

/-- The node has gone from `s` with the log `A` to `s'` with the log `A'`, and has lost only events
of buckets that are deleted by then. -/
structure Follows (env : Env D) (E : Set Event) (base : List Event) (s s' : SharedState D)
    (A A' : Finset Event) : Prop where
  logged : ∃ gone', Logged env E base A' gone' [] s'
  unlocked : s'.Unlocked
  tombs : ∀ bucket, s.deletedBuckets.containsKey bucket = true →
    s'.deletedBuckets.containsKey bucket = true
  kept : ∀ e ∈ A, s'.deletedBuckets.containsKey e.bucket = false → e ∈ A'

namespace Follows

variable {env : Env D} {E : Set Event} {base : List Event} {s s₁ s' : SharedState D}
  {A A₁ A' : Finset Event}

lemma refl {gone : Finset Event} (h : Logged env E base A gone [] s) (hfree : s.Unlocked) :
    Follows env E base s s A A :=
  ⟨⟨gone, h⟩, hfree, fun _ hb => hb, fun _ he _ => he⟩

lemma trans (h : Follows env E base s s₁ A A₁) (h' : Follows env E base s₁ s' A₁ A') :
    Follows env E base s s' A A' where
  logged := h'.logged
  unlocked := h'.unlocked
  tombs bucket hb := h'.tombs bucket (h.tombs bucket hb)
  kept e he hbucket := by
    refine h'.kept e (h.kept e he (Bool.eq_false_iff.2 fun hb => ?_)) hbucket
    exact Bool.eq_false_iff.1 hbucket (h'.tombs _ hb)

/-- A bucket that is there at the end has been there all along. -/
lemma undeleted (h : Follows env E base s s' A A') {bucket : String}
    (hbucket : s'.deletedBuckets.containsKey bucket = false) :
    s.deletedBuckets.containsKey bucket = false :=
  Bool.eq_false_iff.2 fun hb => Bool.eq_false_iff.1 hbucket (h.tombs _ hb)

/-- The head of a key is at least where the new log has everything. -/
lemma le_head (h : Follows env E base s s' A A') {key : EpochKey} {m : ℕ}
    (hall : ∀ n, 1 ≤ n → n ≤ m → ∃ e ∈ A', e.originKey = key.at n) : m ≤ s'.head key := by
  obtain ⟨gone', hlogged⟩ := h.logged
  exact (hlogged.log.head key).le_of_mem fun n hn hle => mem_seqsOf.2 (hall n hn hle)

end Follows

lemma bucket_of_originKey_eq {e : Event} {key : EpochKey} {n : ℕ} (h : e.originKey = key.at n) :
    e.bucket = key.1 :=
  congrArg Prod.fst h

section Runs

variable {env : Env D} {E : Set Event} {base : List Event} {s s' : SharedState D}
  {A gone : Finset Event}

lemma LifeStep.follows (hE : Identified E) {op : LifeOp} (h : LifeStep env E base op s s')
    (hlogged : Logged env E base A gone [] s) (hfree : s.Unlocked) :
    ∃ A', Follows env E base s s' A A' ∧ ∀ e, op = .node (.insert e) → 1 ≤ e.originSeq →
      s.deletedBuckets.containsKey e.bucket = false → e ∈ A' := by
  obtain ⟨A', gone', hlogged', hcarries, hinsert⟩ := hlogged.step hE hfree h
  refine ⟨A', ⟨⟨gone', hlogged'⟩, hcarries.unlocked, hcarries.tombs, fun e he hbucket => ?_⟩,
    hinsert⟩
  rcases hcarries.kept e he with hmem | hdeletes
  · exact hmem
  · exact absurd (hcarries.deletes _ hdeletes) (Bool.eq_false_iff.1 hbucket)

lemma Meanwhile.follows (hE : Identified E) (h : Meanwhile env E base s s')
    (hlogged : Logged env E base A gone [] s) (hfree : s.Unlocked) :
    ∃ A', Follows env E base s s' A A' := by
  induction h with
  | refl => exact ⟨A, .refl hlogged hfree⟩
  | tail _ hstep ih =>
      obtain ⟨op, hstep⟩ := hstep
      obtain ⟨A₁, hfollows⟩ := ih
      obtain ⟨gone₁, hlogged₁⟩ := hfollows.logged
      obtain ⟨A₂, hfollows₂, -⟩ := hstep.follows hE hlogged₁ hfollows.unlocked
      exact ⟨A₂, hfollows.trans hfollows₂⟩

/-- Every event of a batch is in the log when the batch has been inserted. -/
lemma BatchInserted.follows (hE : Identified E) {events : List Event}
    (h : BatchInserted env E base events s s') (hlogged : Logged env E base A gone [] s)
    (hfree : s.Unlocked) :
    ∃ A', Follows env E base s s' A A' ∧ ∀ e ∈ events, 1 ≤ e.originSeq →
      s'.deletedBuckets.containsKey e.bucket = false → e ∈ A' := by
  induction h generalizing A gone with
  | nil hmeanwhile =>
      obtain ⟨A', hfollows⟩ := hmeanwhile.follows hE hlogged hfree
      exact ⟨A', hfollows, fun e he => absurd he List.not_mem_nil⟩
  | cons hmeanwhile hstep _ ih =>
      obtain ⟨A₁, hfollows₁⟩ := hmeanwhile.follows hE hlogged hfree
      obtain ⟨gone₁, hlogged₁⟩ := hfollows₁.logged
      obtain ⟨A₂, hfollows₂, hinsert⟩ := hstep.follows hE hlogged₁ hfollows₁.unlocked
      obtain ⟨gone₂, hlogged₂⟩ := hfollows₂.logged
      obtain ⟨A', hfollows', hrest⟩ := ih hlogged₂ hfollows₂.unlocked
      refine ⟨A', (hfollows₁.trans hfollows₂).trans hfollows', fun e he hpos hbucket => ?_⟩
      rcases List.mem_cons.1 he with rfl | he
      · have hbefore := (hfollows₂.trans hfollows').undeleted hbucket
        exact hfollows'.kept _ (hinsert _ rfl hpos hbefore) hbucket
      · exact hrest e he hpos hbucket

/-- Every event of every answer is in the log at the end of the round. -/
lemma Fetched.follows (hE : Identified E) {localHeads : Map String ℕ}
    {answer : RangeRequest → Option (List Event)} {entries : List (String × ℕ)}
    (h : Fetched env E base localHeads answer entries s s')
    (hlogged : Logged env E base A gone [] s) (hfree : s.Unlocked) :
    ∃ A', Follows env E base s s' A A' ∧ ∀ entry ∈ entries, ∀ req events,
      rangeRequest localHeads entry = some req → answer req = some events →
      ∀ e ∈ events, 1 ≤ e.originSeq → s'.deletedBuckets.containsKey e.bucket = false → e ∈ A' := by
  induction h generalizing A gone with
  | done hmeanwhile =>
      obtain ⟨A', hfollows⟩ := hmeanwhile.follows hE hlogged hfree
      exact ⟨A', hfollows, fun entry hentry => absurd hentry List.not_mem_nil⟩
  | skip hnone _ ih =>
      obtain ⟨A', hfollows, hrest⟩ := ih hlogged hfree
      refine ⟨A', hfollows, fun entry hentry req events hreq => ?_⟩
      rcases List.mem_cons.1 hentry with rfl | hentry
      · cases hnone.symm.trans hreq
      · exact hrest entry hentry req events hreq
  | unanswered hreq hnone _ ih =>
      obtain ⟨A', hfollows, hrest⟩ := ih hlogged hfree
      refine ⟨A', hfollows, fun entry hentry req' events hreq' hanswer => ?_⟩
      rcases List.mem_cons.1 hentry with rfl | hentry
      · obtain rfl := Option.some.inj (hreq.symm.trans hreq')
        cases hnone.symm.trans hanswer
      · exact hrest entry hentry req' events hreq' hanswer
  | answered hreq hanswer hbatch _ ih =>
      obtain ⟨A₁, hfollows₁, hmem⟩ := hbatch.follows hE hlogged hfree
      obtain ⟨gone₁, hlogged₁⟩ := hfollows₁.logged
      obtain ⟨A', hfollows', hrest⟩ := ih hlogged₁ hfollows₁.unlocked
      refine ⟨A', hfollows₁.trans hfollows', fun entry hentry req' events' hreq' hanswer' => ?_⟩
      rcases List.mem_cons.1 hentry with rfl | hentry
      · obtain rfl := Option.some.inj (hreq.symm.trans hreq')
        obtain rfl := Option.some.inj (hanswer.symm.trans hanswer')
        intro e he hpos hbucket
        exact hfollows'.kept e (hmem e he hpos (hfollows'.undeleted hbucket)) hbucket
      · exact hrest entry hentry req' events' hreq' hanswer'

/-! ## Progress -/

/-- Where two heads have one text, `get_heads` answers the head of one of them; the text of a key
without separators is its own. -/
lemma SharedState.GetHeads.head {heads : Map String ℕ} (h : s.GetHeads heads) {key : EpochKey}
    (hkey : key.TabFree) : (heads (encodeHeadKey key)).getD 0 = s.head key := by
  cases htext : heads (encodeHeadKey key) with
  | none =>
      have hnone : s.heads key = none := by
        by_contra hsome
        exact h.total key hsome htext
      rw [SharedState.head, hnone]
  | some n =>
      obtain ⟨key', htext', hn⟩ := h.some _ n htext
      obtain rfl := encodeHeadKey_inj_of_tabFree hkey htext'
      rw [SharedState.head, hn]

/-- **A round makes progress.** -/
lemma CatchUpRound.follows (hE : Identified E) {key : EpochKey} (hkey : key.TabFree)
    (hepoch : key.2.2 < 2 ^ 32) {peer : SharedState D} {P : Finset Event}
    (hpeer : PeerOf env E peer P) (h : CatchUpRound env E base key peer P s s')
    (hlogged : Logged env E base A gone [] s) (hfree : s.Unlocked) :
    ∃ A', Follows env E base s s' A A' ∧
      (s'.deletedBuckets.containsKey key.1 = false →
        min (s.head key + 5000) (peer.head key) ≤ s'.head key ∧ s.head key ≤ s'.head key) := by
  obtain ⟨peerHeads, localHeads, entries, answer, s₁, hpeerHeads, hentries, hmeanwhile, hlocal,
    hanswer, hfetched⟩ := h.round
  obtain ⟨A₁, hfollows₁⟩ := hmeanwhile.follows hE hlogged hfree
  obtain ⟨gone₁, hlogged₁⟩ := hfollows₁.logged
  obtain ⟨A', hfollows', hmem⟩ := hfetched.follows hE hlogged₁ hfollows₁.unlocked
  have hfollows := hfollows₁.trans hfollows'
  refine ⟨A', hfollows, fun hbucket => ?_⟩
  -- what the node had at the snapshot it still has
  have hold : ∀ n, 1 ≤ n → n ≤ s₁.head key → ∃ e ∈ A', e.originKey = key.at n := by
    intro n hn hle
    obtain ⟨e, he, hat⟩ := (hlogged₁.log.accepted_iff key hn).2 (.inl hle)
    exact ⟨e, hfollows'.kept e he (bucket_of_originKey_eq hat ▸ hbucket), hat⟩
  have hbefore : s.head key ≤ s₁.head key := by
    refine hfollows₁.le_head fun n hn hle => ?_
    obtain ⟨e, he, hat⟩ := (hlogged.log.accepted_iff key hn).2 (.inl hle)
    refine ⟨e, hfollows₁.kept e he ?_, hat⟩
    exact bucket_of_originKey_eq hat ▸ hfollows'.undeleted hbucket
  have hgrown : s₁.head key ≤ s'.head key := hfollows.le_head hold
  refine ⟨?_, hbefore.trans hgrown⟩
  by_cases hahead : peer.head key ≤ s₁.head key
  · exact (min_le_right _ _).trans (hahead.trans hgrown)
  -- the peer is ahead, so it is asked for the next events
  have hmyHead := hlocal.head hkey
  have hpeerHead := hpeerHeads.head hkey
  have hentry : (encodeHeadKey key, peer.head key) ∈ entries := by
    rw [hentries]
    cases htext : peerHeads (encodeHeadKey key) with
    | none =>
        rw [htext] at hpeerHead
        exact absurd (hpeerHead ▸ Nat.zero_le _ : peer.head key ≤ s₁.head key) hahead
    | some n =>
        rw [htext] at hpeerHead
        exact congrArg some hpeerHead
  have hreq : rangeRequest localHeads (encodeHeadKey key, peer.head key) = some
      { bucket := key.1, originNodeId := key.2.1, originEpoch := key.2.2
        fromSeq := s₁.head key + 1, toSeq := min (s₁.head key + 5000) (peer.head key) } := by
    rw [rangeRequest]
    dsimp only
    rw [hmyHead, if_neg hahead, decode_encodeHeadKey hkey.1 hepoch]
    rfl
  obtain ⟨events, hevents, hall⟩ := hanswer _ _ hentry hreq
  refine (min_le_min_right _ (Nat.add_le_add_right hbefore 5000)).trans ?_
  refine hfollows.le_head fun n hn hle => ?_
  by_cases hsmall : n ≤ s₁.head key
  · exact hold n hn hsmall
  · have hpeerLe : n ≤ peer.head key := hle.trans (min_le_right _ _)
    obtain ⟨e, he, hat⟩ := (hpeer.log.accepted_iff key hn).2 (.inl hpeerLe)
    have hepochKey : e.epochKey = key := congrArg OriginKey.epoch hat
    have hseq : e.originSeq = n := congrArg (fun k : OriginKey => k.2.2.2) hat
    have hin : e ∈ events := by
      refine hall e he hepochKey ?_ ?_
      · show s₁.head key + 1 ≤ e.originSeq
        omega
      · show e.originSeq ≤ min (s₁.head key + 5000) (peer.head key)
        omega
    refine ⟨e, hmem _ hentry _ events hreq hevents e hin (by omega) ?_, hat⟩
    exact bucket_of_originKey_eq hat ▸ hbucket

/-- Round after round the head gets as far as 5000 seqs a round can bring it. -/
lemma CatchUpRounds.follows (hE : Identified E) {key : EpochKey} (hkey : key.TabFree)
    (hepoch : key.2.2 < 2 ^ 32) {H k : ℕ} (h : CatchUpRounds env E base key H k s s')
    (hlogged : Logged env E base A gone [] s) (hfree : s.Unlocked) :
    ∃ A', Follows env E base s s' A A' ∧
      (s'.deletedBuckets.containsKey key.1 = false →
        min (s.head key + 5000 * k) H ≤ s'.head key ∧ s.head key ≤ s'.head key) := by
  induction h with
  | zero =>
      refine ⟨A, .refl hlogged hfree, fun _ => ⟨?_, le_refl _⟩⟩
      exact min_le_left _ _
  | succ _ hpeer hH hround ih =>
      obtain ⟨A₁, hfollows₁, hhead₁⟩ := ih hlogged hfree
      obtain ⟨gone₁, hlogged₁⟩ := hfollows₁.logged
      obtain ⟨A', hfollows', hhead'⟩ :=
        hround.follows hE hkey hepoch hpeer hlogged₁ hfollows₁.unlocked
      refine ⟨A', hfollows₁.trans hfollows', fun hbucket => ?_⟩
      obtain ⟨hle₁, hmono₁⟩ := hhead₁ (hfollows'.undeleted hbucket)
      obtain ⟨hle', hmono'⟩ := hhead' hbucket
      omega

end Runs

/-! ## Keys that cannot be read back -/

/-- `k` rounds of catch-up bring the head of `key` forward by 5000 seqs a round, up to a head `H` of
the peers, and never back, as long as the bucket is not deleted. -/
def CatchesUp (key : EpochKey) : Prop :=
  ∀ (D : Type) (E : Set Event) (env : Env D) (base : List Event) (s s' : SharedState D) (H k : ℕ),
    Identified E → Lifetime (fun _ _ _ => True) E env base s →
    CatchUpRounds env E base key H k s s' → s'.deletedBuckets.containsKey key.1 = false →
    min (s.head key + 5000 * k) H ≤ s'.head key ∧ s.head key ≤ s'.head key ∧
      (H ≤ s.head key + 5000 * k → H ≤ s'.head key)

/-- A node on an empty storage that never fails. -/
def catchUpEnv : Env Unit := Env.plain "node" 1000

/-- The first event of a key. -/
def firstEvent (eventId : String) (key : EpochKey) : Event :=
  (LocalCreateInput.legacy key.1 "alice" 5 none 0 "n1" false).chargeDraft.event eventId key.2.1
    (key.2.2, 1) 900

lemma epochKey_firstEvent (eventId : String) (key : EpochKey) :
    (firstEvent eventId key).epochKey = key := rfl

lemma SharedState.getHeads_empty {s : SharedState D} (h : s.heads = fun _ => none) :
    s.GetHeads fun _ => none where
  some text n hn := by cases hn
  total key hkey := absurd (congrFun h key) hkey

lemma SharedState.getHeads_insert {s : SharedState D} {key : EpochKey} {n : ℕ}
    (h : s.heads = Map.insert (fun _ => none) key n) :
    s.GetHeads (Map.insert (fun _ => none) (encodeHeadKey key) n) where
  some text m hm := by
    rw [Map.insert_apply] at hm
    split at hm
    · rename_i htext
      refine ⟨key, htext.symm, ?_⟩
      rw [h, Map.insert_self, hm]
    · cases hm
  total key' hkey := by
    have heq : key' = key := by
      by_contra hne
      rw [h, Map.insert_of_ne _ _ _ hne] at hkey
      exact hkey rfl
    rw [heq, Map.insert_self]
    exact Option.some_ne_none n

/-- A node that has started on an empty storage. -/
lemma Lifetime.fresh {E : Set Event} (hE : Identified E) :
    ∃ calls, Lifetime (fun _ _ _ => True) E catchUpEnv [] (.fresh 1 calls) ∧
      Logged catchUpEnv E [] ∅ ∅ [] (.fresh 1 calls) := by
  obtain ⟨calls, hrun⟩ := exec_newSharedState_empty catchUpEnv
  have hstart : Starts catchUpEnv .empty (.fresh 1 calls) := ⟨hrun, fun _ _ => rfl⟩
  have hst : (Storage.empty : Storage Unit).WellFormed E catchUpEnv.nodeId := by
    constructor <;> simp [Storage.empty]
  have hlife := Lifetime.start (C := fun _ _ _ => True) hst hstart
  exact ⟨calls, hlife, Lifetime.logged_of_starts hE hst hstart⟩

/-- A node that has started on an empty storage and received the first event of a key. -/
lemma Lifetime.afterFirst {E : Set Event} (hE : Identified E) {eventId : String} {key : EpochKey}
    (he : firstEvent eventId key ∈ E) :
    ∃ s, Lifetime (fun _ _ _ => True) E catchUpEnv [] s ∧
      LogOf catchUpEnv.hasher {firstEvent eventId key} s ∧
      s.heads = Map.insert (fun _ => none) key 1 ∧ s.deletedBuckets = fun _ => none := by
  obtain ⟨calls, hlife, hlogged⟩ := Lifetime.fresh hE
  set s₀ : SharedState Unit := .fresh 1 calls with hs₀
  set e := firstEvent eventId key with hedef
  have hfree : s₀.Unlocked := fun _ => rfl
  obtain ⟨r, s', hinserted, hrun⟩ := exec_insertEvent catchUpEnv e rfl hfree
  obtain ⟨rfl, rfl⟩ : r = some true ∧ (s₀.accepted catchUpEnv e).cacheEvent e = s' := by
    cases hinserted with
    | deleted h => cases h
    | present _ h => cases h
    | occupied _ _ h => exact absurd rfl h
    | filed => exact ⟨rfl, rfl⟩
    | conflict _ _ _ h => cases h
  set s₁ : SharedState Unit := (s₀.accepted catchUpEnv e).cacheEvent e with hs₁
  have haccepted := SharedState.accepted_frame catchUpEnv s₀ e
  have hminted : s₁.minted = [] := by
    rw [hs₁, haccepted]
    rfl
  have hstep : LifeStep catchUpEnv E [] (.node (.insert e)) s₀ s₁ := by
    refine ⟨?_, he, ?_⟩
    · simp only [NodeM.exec] at hrun
      simp only [LifeOp.program, NodeOp.program, NodeM.exec, Proc.exec_bind, hrun,
        Proc.andThen_some]
      rfl
    · rw [hminted]
      exact ⟨List.nodup_nil, by simp, by simp⟩
  have hnew : e ∉ s₀.acceptedSince [] ++ [] := List.not_mem_nil
  have hlog := (hlogged.accepted hE he hnew (le_refl 1)).log
  refine ⟨s₁, .step hlife trivial hstep, hlog.of_sameLog ⟨rfl, rfl, rfl, rfl⟩, ?_, ?_⟩
  · have hseq : 1 = (s₀.applied e).head key + 1 := rfl
    obtain ⟨h', p', hlt, hrun, -, -, hheads, -⟩ :=
      SharedState.advanceHead_next catchUpEnv key hseq
    have hone : h' = 1 := by
      by_contra hne
      have hzero : 0 < h' := hlt
      exact Finset.notMem_empty _ (hrun 2 (by omega) (by omega))
    rw [← hone]
    exact hheads
  · rw [hs₁, haccepted]
    rfl

/-- A node that is not asked for the event of a peer stays where it is. -/
lemma CatchUpRounds.idle {env : Env D} {E : Set Event} {base : List Event} {key : EpochKey}
    {s peer : SharedState D} {localHeads : Map String ℕ} {e : Event} (he : e ∈ E)
    (hpeer : LogOf env.hasher {e} peer) (hheads : peer.heads = Map.insert (fun _ => none) key 1)
    (hepoch : e.epochKey = key) (hlocal : s.GetHeads localHeads)
    (hrequest : ∀ req, rangeRequest localHeads (encodeHeadKey key, 1) = some req →
      req.key ≠ key) :
    CatchUpRounds env E base key 1 1 s s := by
  have hpeerOf : PeerOf env E peer {e} := by
    refine ⟨hpeer, fun x hx => ?_⟩
    rw [Finset.mem_singleton.1 hx]
    exact he
  have hhead : 1 ≤ peer.head key := by
    rw [SharedState.head, hheads, Map.insert_self]
    exact le_refl 1
  refine .succ .zero hpeerOf hhead ⟨_, localHeads, [(encodeHeadKey key, 1)], fun _ => some [], s,
    SharedState.getHeads_insert hheads, fun text n => ?_, .refl, hlocal,
    fun n req hentry hreq => ?_, ?_⟩
  · rw [List.mem_singleton, Prod.mk.injEq, Map.insert_apply]
    split
    · rename_i htext
      simp [htext, eq_comm]
    · rename_i htext
      simp [htext]
  · obtain rfl : n = 1 := by simpa using hentry
    refine ⟨[], rfl, fun x hx hkey => ?_⟩
    rw [Finset.mem_singleton.1 hx, hepoch] at hkey
    exact absurd hkey.symm (hrequest req hreq)
  · cases hreq : rangeRequest localHeads (encodeHeadKey key, 1) with
    | none => exact .skip hreq (.done .refl)
    | some req => exact .answered hreq rfl (.nil .refl) (.done .refl)

/-- A round with a peer that is one event ahead need not bring a key forward whose bucket or origin
holds the separator. -/
lemma not_catchesUp {key : EpochKey} (hkey : ¬ key.TabFree) : ¬ CatchesUp key := by
  intro hcatches
  by_cases hbucket : '\t' ∈ key.1.toList
  · -- the text is read back as another key, if at all
    have hE : Identified {e | e ∈ [firstEvent "e1" key]} := identified_of_list (by simp)
    obtain ⟨calls, hlife, -⟩ := Lifetime.fresh hE
    obtain ⟨peer, -, hpeer, hheads, -⟩ :=
      Lifetime.afterFirst hE (List.mem_singleton_self (firstEvent "e1" key))
    have hrounds : CatchUpRounds catchUpEnv {e | e ∈ [firstEvent "e1" key]} [] key 1 1
        (.fresh 1 calls) (.fresh 1 calls) := by
      refine .idle (List.mem_singleton_self _) hpeer hheads (epochKey_firstEvent _ _)
        (SharedState.getHeads_empty rfl) fun req hreq heq => ?_
      simp only [rangeRequest, Option.getD_none, if_neg (by decide : ¬ (1 : ℕ) ≤ 0),
        Option.map_eq_some_iff] at hreq
      obtain ⟨key', hdecode, rfl⟩ := hreq
      have hsame : key' = key := heq
      exact notMem_of_decode hdecode (hsame ▸ hbucket)
    have hprogress := (hcatches Unit _ _ _ _ _ 1 1 hE hlife hrounds rfl).1
    cases hprogress
  · -- another key has the text
    have horigin : '\t' ∈ key.2.1.toList := by
      by_contra hnot
      exact hkey ⟨hbucket, hnot⟩
    obtain ⟨o₁, o₂, ho⟩ := List.append_of_mem horigin
    set key' : EpochKey := (key.1 ++ "\t" ++ String.ofList o₁, String.ofList o₂, key.2.2) with hkey'
    have htext : encodeHeadKey key' = encodeHeadKey key := by
      apply String.toList_injective
      have htab : "\t".toList = ['\t'] := rfl
      rw [toList_encodeHeadKey, toList_encodeHeadKey, ho, hkey']
      simp [htab]
    have hne : key' ≠ key := by
      intro heq
      apply hbucket
      have hb : key.1 ++ "\t" ++ String.ofList o₁ = key.1 := congrArg Prod.fst heq
      rw [← hb]
      simp
    have hE : Identified {e | e ∈ [firstEvent "e1" key, firstEvent "e2" key']} := by
      have hapart : ¬ ("e1" = "e2" ∨
          (firstEvent "e1" key).originKey = (firstEvent "e2" key').originKey) := by
        rintro (h | h)
        · exact absurd h (by decide)
        · exact hne (congrArg OriginKey.epoch h).symm
      refine identified_of_list fun e he e' he' h => ?_
      rcases List.mem_pair.1 he with rfl | rfl <;> rcases List.mem_pair.1 he' with rfl | rfl
      · rfl
      · exact absurd h hapart
      · exact absurd (h.imp Eq.symm Eq.symm) hapart
      · rfl
    obtain ⟨peer, -, hpeer, hheads, -⟩ :=
      Lifetime.afterFirst hE (List.mem_cons_self : firstEvent "e1" key ∈ _)
    obtain ⟨s, hlife, -, hheads', hdeleted⟩ :=
      Lifetime.afterFirst hE (by simp : firstEvent "e2" key' ∈ _)
    have hhead : s.head key = 0 := by
      rw [SharedState.head, hheads', Map.insert_of_ne _ _ _ hne.symm]
      rfl
    have hrounds : CatchUpRounds catchUpEnv {e | e ∈ [firstEvent "e1" key, firstEvent "e2" key']}
        [] key 1 1 s s := by
      refine .idle (by simp) hpeer hheads (epochKey_firstEvent _ _)
        (SharedState.getHeads_insert hheads') fun req hreq => ?_
      rw [rangeRequest, htext, Map.insert_self] at hreq
      cases hreq
    have hundeleted : s.deletedBuckets.containsKey key.1 = false := by
      rw [hdeleted]
      rfl
    have hprogress := (hcatches Unit _ _ _ _ _ 1 1 hE hlife hrounds hundeleted).1
    rw [hhead] at hprogress
    cases hprogress

/-- **Catch-up.**  Rounds of catch-up bring a key forward exactly when neither its bucket nor its
origin holds the separator of the wire format. -/
theorem catch_up_iff {key : EpochKey} (hepoch : key.2.2 < 2 ^ 32) :
    CatchesUp key ↔ key.TabFree := by
  constructor
  · intro hcatches
    by_contra hkey
    exact not_catchesUp hkey hcatches
  · intro hkey D E env base s s' H k hE hlife hrounds hbucket
    obtain ⟨hfree, A, gone, hlogged⟩ := hlife.logged hE
    obtain ⟨A', -, hprogress⟩ := hrounds.follows hE hkey hepoch hlogged hfree
    obtain ⟨hle, hmono⟩ := hprogress hbucket
    refine ⟨hle, hmono, fun hH => ?_⟩
    rwa [min_eq_right hH] at hle

theorem catch_up_bucket : CatchesUp ("bucket", "n1", 1) :=
  (catch_up_iff (by decide)).2 (by decide)

/-- The text of `("a\tb", "n1", 1)` is read back as the key of bucket `a` and origin `b\tn1`. -/
theorem not_catchesUp_tab : ¬ CatchesUp ("a\tb", "n1", 1) :=
  not_catchesUp (by decide)

end Shardd
