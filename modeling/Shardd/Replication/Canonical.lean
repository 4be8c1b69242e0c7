import Shardd.Lib.Text
import Shardd.Recovery.Restart

/-!
# The canonical form of an event and the checksum over a store

`Event::canonical` writes twelve fields with colons between them, `compute_checksum` and
`checksum_data` write the canonical forms of a list of events with line breaks between them, and the
rolling digest of an epoch is a hash chain over canonical forms.  Six of the fields are free texts,
and nothing escapes the colons in them.

A text with the colons where they are expected is read back.  So as long as the texts of the events
leave the colon out, the fields, the list of the canonical forms and the events below a digest are
all determined; with one more character in use, the colon, they are not.
-/

namespace Shardd

/-! ## Checksums -/

/-- What `compute_checksum` and `checksum_data` hash of the canonical forms, in their order. -/
def checksumText (canonicals : List String) : String := "\n".intercalate canonicals

/-- What `compute_checksum` is given of an event. -/
abbrev ChecksumRow := String × String × ℕ × ℕ × String

def Event.checksumRow (e : Event) : ChecksumRow :=
  (e.bucket, e.originNodeId, e.originEpoch, e.originSeq, e.canonical)

/-- The order of `compute_checksum`. -/
def ChecksumRow.le (a b : ChecksumRow) : Prop :=
  toLex (a.1, toLex (a.2.1, toLex (a.2.2.1, a.2.2.2.1))) ≤
  toLex (b.1, toLex (b.2.1, toLex (b.2.2.1, b.2.2.2.1)))

instance : DecidableRel ChecksumRow.le := fun _ _ => inferInstanceAs (Decidable (_ ≤ _))

/-- The canonical forms in the order in which `compute_checksum` hashes them. -/
def sortedCanonicals (events : List ChecksumRow) : List String :=
  (events.insertionSort ChecksumRow.le).map fun row => row.2.2.2.2

/-- The text `compute_checksum` hashes. -/
def computeChecksum (events : List ChecksumRow) : String := checksumText (sortedCanonicals events)

/-- The canonical forms in the order in which `checksum_data` hashes them: the `BTreeMap` of the
events is ordered by their origin keys. -/
def Storage.canonicals {D : Type} (st : Storage D) : List String :=
  (st.events.insertionSort byOriginKey).map Event.canonical

/-- The text `checksum_data` hashes. -/
def Storage.checksumData {D : Type} (st : Storage D) : String := checksumText st.canonicals

/-! ## What is to be read back -/

namespace Event

/-- The free texts that `canonical` writes. -/
def writtenTexts (e : Event) : List String :=
  [e.originNodeId, e.eventId, e.bucket, e.account, e.voidRef.getD "", e.idempotencyNonce]

/-- The free texts are made of the characters `chars`. -/
def Over (chars : Set Char) (e : Event) : Prop :=
  ∀ text ∈ e.writtenTexts, ∀ c ∈ text.toList, c ∈ chars

/-- `canonical` writes the same values for both events. -/
structure SameWritten (a b : Event) : Prop where
  originNodeId : a.originNodeId = b.originNodeId
  originEpoch : a.originEpoch = b.originEpoch
  originSeq : a.originSeq = b.originSeq
  eventId : a.eventId = b.eventId
  type : a.type = b.type
  bucket : a.bucket = b.bucket
  account : a.account = b.account
  amount : a.amount = b.amount
  voidRef : a.voidRef.getD "" = b.voidRef.getD ""
  idempotencyNonce : a.idempotencyNonce = b.idempotencyNonce
  holdAmount : a.holdAmount = b.holdAmount
  holdExpiresAtUnixMs : a.holdExpiresAtUnixMs = b.holdExpiresAtUnixMs

end Event

/-- Both nodes hold an event at every seq of the epoch up to the head, and `canonical` writes the
same values for the two. -/
def SharedState.SamePrefixes {D : Type} (key : EpochKey) (base base' : List Event)
    (s s' : SharedState D) : Prop :=
  ∀ n, 1 ≤ n → n ≤ s.head key → ∃ e ∈ s.acceptedSince base, ∃ e' ∈ s'.acceptedSince base',
    e.originKey = key.at n ∧ e'.originKey = key.at n ∧ e.SameWritten e'

/-- The canonical forms of events over `chars` determine what is written into them, the text below
a checksum determines the canonical forms, and head and digest of an epoch determine what two nodes
hold of it. -/
structure EncodesFaithfully (D : Type) (chars : Set Char) : Prop where
  fields : ∀ a b : Event, a.Over chars → b.Over chars → a.canonical = b.canonical → a.SameWritten b
  lists : ∀ es es' : List Event, (∀ e ∈ es, e.Over chars) → (∀ e ∈ es', e.Over chars) →
    computeChecksum (es.map Event.checksumRow) = computeChecksum (es'.map Event.checksumRow) →
    sortedCanonicals (es.map Event.checksumRow) = sortedCanonicals (es'.map Event.checksumRow)
  stores : ∀ st st' : Storage D, (∀ e ∈ st.events, e.Over chars) →
    (∀ e ∈ st'.events, e.Over chars) → st.checksumData = st'.checksumData →
    st.canonicals = st'.canonicals
  /-- The two nodes may know different events under one origin key, each one of them. -/
  digests : ∀ {E E' : Set Event} {env env' : Env D} {base base' : List Event} {t t' : ℕ}
    {s s' : SharedState D} (key : EpochKey), Identified E → Identified E' →
    (∀ e ∈ E, e.Over chars) → (∀ e ∈ E', e.Over chars) →
    History E env base t s → History E' env' base' t' s' → env'.hasher = env.hasher →
    Function.Injective2 env.hasher.chain → s.head key = s'.head key →
    s.digests key = s'.digests key → s.SamePrefixes key base base' s'

/-! ## Reading a canonical form -/

lemma EventType.display_injective : Function.Injective EventType.display := by
  intro a b h
  revert h
  cases a <;> cases b <;> decide

lemma EventType.notMem_display (type : EventType) : ':' ∉ type.display.toList := by
  cases type <;> decide

namespace Event

/-- The fields of a canonical form that a colon follows. -/
def markedTexts (e : Event) : List String :=
  [e.originNodeId, toString e.originEpoch, toString e.originSeq, e.eventId, e.type.display,
    e.bucket, e.account, toString e.amount.toInt, e.voidRef.getD "", e.idempotencyNonce,
    toString e.holdAmount.toNat]

lemma toList_canonical (e : Event) : e.canonical.toList =
    markedFields ':' (e.markedTexts.map String.toList) (toString e.holdExpiresAtUnixMs).toList := by
  have hcolon : ":".toList = [':'] := by decide
  unfold canonical markedTexts
  generalize toString e.originEpoch = epoch, toString e.originSeq = seq,
    toString e.amount.toInt = amount, toString e.holdAmount.toNat = hold,
    toString e.holdExpiresAtUnixMs = expires
  simp only [String.toList_append, hcolon, markedFields, List.map_cons,
    List.map_nil, List.foldr_cons, List.foldr_nil, List.append_assoc, List.cons_append,
    List.nil_append]

lemma Over.notMem_markedTexts {chars : Set Char} (hchars : ':' ∉ chars) {e : Event}
    (h : e.Over chars) : ∀ field ∈ e.markedTexts.map String.toList, ':' ∉ field := by
  have htext : ∀ text ∈ e.writtenTexts, ':' ∉ text.toList :=
    fun text hmem hc => hchars (h text hmem _ hc)
  simp only [writtenTexts, List.forall_mem_cons] at htext
  obtain ⟨hnode, hid, hbucket, haccount, hvoid, hnonce, -⟩ := htext
  simp only [markedTexts, List.map_cons, List.map_nil, List.forall_mem_cons]
  exact ⟨hnode, notMem_toString_nat (by decide) _, notMem_toString_nat (by decide) _, hid,
    e.type.notMem_display, hbucket, haccount, notMem_toString_int (by decide) (by decide) _, hvoid,
    hnonce, notMem_toString_nat (by decide) _, List.forall_mem_nil _⟩

/-- Equal fields hold equal values. -/
lemma sameWritten_of_markedTexts {a b : Event} (h : a.markedTexts = b.markedTexts)
    (hexpires : toString a.holdExpiresAtUnixMs = toString b.holdExpiresAtUnixMs) :
    a.SameWritten b := by
  simp only [markedTexts, List.cons.injEq, and_true] at h
  obtain ⟨hnode, hepoch, hseq, hid, htype, hbucket, haccount, hamount, hvoid, hnonce, hhold⟩ := h
  exact {
    originNodeId := hnode
    originEpoch := toString_nat_inj hepoch
    originSeq := toString_nat_inj hseq
    eventId := hid
    type := EventType.display_injective htype
    bucket := hbucket
    account := haccount
    amount := Int64.toInt_inj.1 (toString_int_inj hamount)
    voidRef := hvoid
    idempotencyNonce := hnonce
    holdAmount := UInt64.toNat_inj.1 (toString_nat_inj hhold)
    holdExpiresAtUnixMs := toString_nat_inj hexpires }

/-- Without colons in the texts, a canonical form is read back. -/
theorem sameWritten_of_canonical {chars : Set Char} (hchars : ':' ∉ chars) {a b : Event}
    (ha : a.Over chars) (hb : b.Over chars) (h : a.canonical = b.canonical) : a.SameWritten b := by
  have hlist := congrArg String.toList h
  rw [toList_canonical, toList_canonical] at hlist
  have hlen : (a.markedTexts.map String.toList).length = (b.markedTexts.map String.toList).length :=
    rfl
  obtain ⟨hfields, hexpires⟩ := markedFields_inj hlen (ha.notMem_markedTexts hchars)
    (hb.notMem_markedTexts hchars) hlist
  exact sameWritten_of_markedTexts (List.map_injective_iff.2 (fun _ _ => String.ext) hfields)
    (String.ext hexpires)

end Event

/-! ## Reading a checksum text -/

/-- The canonical forms of the events over `chars`. -/
def canonicalsOver (chars : Set Char) : Set String :=
  {c | ∃ e : Event, e.Over chars ∧ c = e.canonical}

/-- Without colons in the texts, the text below a checksum is read back: eleven colons and a number
end a canonical form, whatever line breaks its texts hold. -/
theorem checksumText_inj {chars : Set Char} (hchars : ':' ∉ chars) {l l' : List String}
    (hl : ∀ c ∈ l, c ∈ canonicalsOver chars) (hl' : ∀ c ∈ l', c ∈ canonicalsOver chars)
    (h : checksumText l = checksumText l') : l = l' := by
  have hread : SelfDelimiting '\n' {digits : List Char | '\n' ∉ digits} :=
    selfDelimiting_of_notMem fun _ hdigits => hdigits
  have hrecords := hread.behind_fields (m := ':') 11
  set records := {text : List Char | ∃ fields rest, fields.length = 11 ∧
    (∀ field ∈ fields, ':' ∉ field) ∧ rest ∈ {digits : List Char | '\n' ∉ digits} ∧
    text = markedFields ':' fields rest} with hdef
  have hmem : ∀ c ∈ canonicalsOver chars, c.toList ∈ records := by
    rintro c ⟨e, he, rfl⟩
    exact ⟨_, _, rfl, he.notMem_markedTexts hchars, notMem_toString_nat (by decide) _,
      e.toList_canonical⟩
  have hne : [] ∉ records := by
    rintro ⟨fields, rest, hlen, -, -, hnil⟩
    obtain ⟨field, fields, rfl⟩ := List.exists_cons_of_length_eq_add_one hlen
    exact List.cons_ne_nil _ _ (List.append_eq_nil_iff.1 hnil.symm).2
  have hlist := congrArg String.toList h
  rw [checksumText, checksumText, String.toList_intercalate, String.toList_intercalate] at hlist
  have hmap : l.map String.toList = l'.map String.toList := by
    apply hrecords.intercalate_inj hne _ _ hlist
    · intro text htext
      obtain ⟨c, hc, rfl⟩ := List.mem_map.1 htext
      exact hmem c (hl c hc)
    · intro text htext
      obtain ⟨c, hc, rfl⟩ := List.mem_map.1 htext
      exact hmem c (hl' c hc)
  exact List.map_injective_iff.2 (fun _ _ => String.ext) hmap

lemma mem_sortedCanonicals {es : List Event} {c : String}
    (h : c ∈ sortedCanonicals (es.map Event.checksumRow)) : ∃ e ∈ es, c = e.canonical := by
  obtain ⟨row, hrow, rfl⟩ := List.mem_map.1 h
  obtain ⟨e, he, rfl⟩ := List.mem_map.1 ((List.mem_insertionSort _).1 hrow)
  exact ⟨e, he, rfl⟩

lemma Storage.mem_canonicals {D : Type} {st : Storage D} {c : String} (h : c ∈ st.canonicals) :
    ∃ e ∈ st.events, c = e.canonical := by
  obtain ⟨e, he, rfl⟩ := List.mem_map.1 h
  exact ⟨e, (List.mem_insertionSort _).1 he, rfl⟩

/-! ## Reading a digest -/

variable {D : Type}

/-- An injective chain is read back, when it is known how long it is. -/
lemma foldl_chain_inj {chain : D → String → D} (hchain : Function.Injective2 chain) {zero : D}
    {l l' : List String} (hlen : l.length = l'.length)
    (h : l.foldl chain zero = l'.foldl chain zero) : l = l' := by
  induction l using List.reverseRecOn generalizing l' with
  | nil => exact (List.length_eq_zero_iff.1 hlen.symm).symm
  | append_singleton l c ih =>
      rcases l'.eq_nil_or_concat with rfl | ⟨l', c', rfl⟩
      · simp at hlen
      · rw [List.concat_eq_append] at hlen h ⊢
        rw [List.foldl_append, List.foldl_append] at h
        obtain ⟨hl, rfl⟩ := hchain h
        rw [ih (by simpa using hlen) hl]

/-- Without colons in the texts, head and digest of an epoch determine what is written of its
events. -/
lemma LogOf.samePrefixes {chars : Set Char} (hchars : ':' ∉ chars) {hasher : Hasher D}
    (hchain : Function.Injective2 hasher.chain) {base base' : List Event} {s s' : SharedState D}
    (h : LogOf hasher (s.acceptedSince base).toFinset s)
    (h' : LogOf hasher (s'.acceptedSince base').toFinset s')
    (hover : ∀ e ∈ s.acceptedSince base, e.Over chars)
    (hover' : ∀ e ∈ s'.acceptedSince base', e.Over chars) {key : EpochKey}
    (hhead : s.head key = s'.head key) (hdigest : s.digests key = s'.digests key) :
    s.SamePrefixes key base base' s' := by
  intro n hn hle
  obtain ⟨d, ⟨es, hes, hkeys, rfl⟩, hd⟩ := h.digest key
  obtain ⟨d', ⟨es', hes', hkeys', rfl⟩, hd'⟩ := h'.digest key
  rw [hd, hd', ← hhead, if_neg (by omega), if_neg (by omega)] at hdigest
  have hfold := (Prod.mk.inj (Option.some.inj hdigest)).2
  rw [← hhead, ← hkeys] at hkeys'
  have hlen : es.length = es'.length := by simpa using (congrArg List.length hkeys').symm
  -- the two chains run over the same canonical forms
  have hcanonical : es.map Event.canonical = es'.map Event.canonical := by
    apply foldl_chain_inj hchain (by simpa using hlen)
    rw [List.foldl_map, List.foldl_map]
    exact hfold
  have hi : n - 1 < es.length := by
    have hlength := congrArg List.length hkeys
    rw [List.length_map, List.length_map, List.length_range'] at hlength
    omega
  have hi' : n - 1 < es'.length := hlen ▸ hi
  have hkey : (es.get ⟨n - 1, hi⟩).originKey = key.at n := by
    have hget := congrArg (fun l => l[n - 1]?) hkeys
    simp only [List.getElem?_map, List.getElem?_eq_getElem hi, Option.map_some] at hget
    rw [List.getElem?_range' (by omega), Option.map_some, Option.some.injEq] at hget
    rw [List.get_eq_getElem, hget]
    congr 1
    omega
  have hkey' : (es'.get ⟨n - 1, hi'⟩).originKey = (es.get ⟨n - 1, hi⟩).originKey := by
    have hget := congrArg (fun l => l[n - 1]?) hkeys'
    simpa [List.getElem?_map, hi, hi'] using hget
  have hsame : (es.get ⟨n - 1, hi⟩).canonical = (es'.get ⟨n - 1, hi'⟩).canonical := by
    have hget := congrArg (fun l => l[n - 1]?) hcanonical
    simpa [List.getElem?_map, hi, hi'] using hget
  have hmem := List.mem_toFinset.1 (hes _ (List.get_mem es ⟨n - 1, hi⟩))
  have hmem' := List.mem_toFinset.1 (hes' _ (List.get_mem es' ⟨n - 1, hi'⟩))
  exact ⟨_, hmem, _, hmem', hkey, hkey'.trans hkey,
    Event.sameWritten_of_canonical hchars (hover _ hmem) (hover' _ hmem') hsame⟩

/-! ## The encoding is faithful without the colon -/

/-- A transfer of nothing between a bucket and an account with these names. -/
def Event.named (bucket account : String) : Event where
  eventId := ""
  originNodeId := ""
  originEpoch := 1
  originSeq := 1
  createdAtUnixMs := 0
  type := .standard
  bucket := bucket
  account := account
  amount := 0
  note := none
  idempotencyNonce := ""
  voidRef := none
  holdAmount := 0
  holdExpiresAtUnixMs := 0
  transferTo := none

lemma Event.over_named {chars : Set Char} {bucket account : String}
    (hbucket : ∀ c ∈ bucket.toList, c ∈ chars) (haccount : ∀ c ∈ account.toList, c ∈ chars) :
    (Event.named bucket account).Over chars := by
  have hempty : ∀ c ∈ "".toList, c ∈ chars := fun c hc => absurd hc List.not_mem_nil
  simp only [Event.Over, Event.writtenTexts, Event.named, List.forall_mem_cons, Option.getD_none]
  exact ⟨hempty, hempty, hbucket, haccount, hempty, hempty, List.forall_mem_nil _⟩

/-- **Canonical forms.**  Over an alphabet for the texts, the encoding is faithful exactly when the
colon is not one of its characters. -/
theorem encodesFaithfully_iff (D : Type) (chars : Set Char) :
    EncodesFaithfully D chars ↔ ':' ∉ chars := by
  constructor
  · intro h hcolon
    have htext : ∀ c ∈ ":".toList, c ∈ chars := by
      intro c hc
      rw [List.mem_singleton.1 hc]
      exact hcolon
    have hempty : ∀ c ∈ "".toList, c ∈ chars := fun c hc => absurd hc List.not_mem_nil
    have hsame := h.fields (.named ":" "") (.named "" ":") (Event.over_named htext hempty)
      (Event.over_named hempty htext) (by decide +kernel)
    have hbucket : ":" = "" := hsame.bucket
    exact absurd (congrArg String.toList hbucket) (List.cons_ne_nil _ _)
  · intro hchars
    constructor
    · exact fun a b ha hb => Event.sameWritten_of_canonical hchars ha hb
    · intro es es' hes hes' h
      apply checksumText_inj hchars _ _ h
      · intro c hc
        obtain ⟨e, he, rfl⟩ := mem_sortedCanonicals hc
        exact ⟨e, hes e he, rfl⟩
      · intro c hc
        obtain ⟨e, he, rfl⟩ := mem_sortedCanonicals hc
        exact ⟨e, hes' e he, rfl⟩
    · intro st st' hst hst' h
      apply checksumText_inj hchars _ _ h
      · intro c hc
        obtain ⟨e, he, rfl⟩ := Storage.mem_canonicals hc
        exact ⟨e, hst e he, rfl⟩
      · intro c hc
        obtain ⟨e, he, rfl⟩ := Storage.mem_canonicals hc
        exact ⟨e, hst' e he, rfl⟩
    · intro E E' env env' base base' t t' s s' key hE hE' hover hover' hs hs' hhasher hchain hhead
        hdigest
      obtain ⟨lost, hkept⟩ := hs.kept hE
      obtain ⟨lost', hkept'⟩ := hs'.kept hE'
      have hlog' := hkept'.books.log
      rw [hhasher] at hlog'
      refine hkept.books.log.samePrefixes hchars hchain hlog' ?_ ?_ hhead hdigest
      · exact fun e he => hover e (hkept.books.known e (List.mem_append_left _ he))
      · exact fun e he => hover' e (hkept'.books.known e (List.mem_append_left _ he))

/-- Two nodes have been sent different deposits under one origin key, 1 to `alice` and 2 to
`alice:1:`.  The canonical forms are one text, so head and digest of the epoch are the same. -/
theorem not_encodesFaithfully_colon :
    let env : Env (List String) :=
      { nodeId := "node"
        hold := { multiplier := 5, durationMs := 600000 }
        hasher := { zero := [], chain := fun d c => d ++ [c] }
        clock := fun _ => 1000
        freshId := fun n => toString n
        storageOutcome := fun _ => .ok }
    let e := (LocalCreateInput.legacy "shop" "alice" 1 none 0 "2::n" false).chargeDraft.event
      "id-1" "other" (1, 1) 900
    let e' := (LocalCreateInput.legacy "shop" "alice:1:" 2 none 0 "n" false).chargeDraft.event
      "id-1" "other" (1, 1) 900
    let s₀ := (NodeM.exec (newSharedState env) (.blank .empty)).2
    let s := (NodeM.exec ((NodeOp.insert e).program env) s₀).2
    let s' := (NodeM.exec ((NodeOp.insert e').program env) s₀).2
    e.canonical = e'.canonical ∧ e.account ≠ e'.account ∧ e.amount ≠ e'.amount ∧
      (∃ t, History {x | x ∈ [e]} env [] t s) ∧ (∃ t, History {x | x ∈ [e']} env [] t s') ∧
      s.acceptedSince [] = [e] ∧ s'.acceptedSince [] = [e'] ∧
      s.head e.epochKey = 1 ∧ s'.head e.epochKey = 1 ∧
      s.digests e.epochKey = s'.digests e.epochKey ∧
      ¬ EncodesFaithfully (List String) Set.univ := by
  intro env e e' s₀ s s'
  have hcanonical : e.canonical = e'.canonical := by decide +kernel
  have haccount : e.account ≠ e'.account := by decide +kernel
  have hstart : ∀ E : Set Event, History E env [] (env.clock 0) s₀ := fun E => .first fun _ => rfl
  have hstep : NodeStep env {x | x ∈ [e]} [] (.insert e) s₀ s := by
    apply NodeStep.of_not_minting (by decide +kernel) _ (by decide +kernel)
    exact ⟨List.mem_singleton.2 rfl, by decide +kernel, by decide +kernel⟩
  have hstep' : NodeStep env {x | x ∈ [e']} [] (.insert e') s₀ s' := by
    apply NodeStep.of_not_minting (by decide +kernel) _ (by decide +kernel)
    exact ⟨List.mem_singleton.2 rfl, by decide +kernel, by decide +kernel⟩
  refine ⟨hcanonical, haccount, by decide +kernel, ⟨_, .step (hstart _) hstep⟩,
    ⟨_, .step (hstart _) hstep'⟩, by decide +kernel, by decide +kernel, by decide +kernel,
    by decide +kernel, by decide +kernel, fun h => ?_⟩
  have hover : ∀ x : Event, x.Over Set.univ := fun x text htext c hc => Set.mem_univ c
  exact haccount (h.fields e e' (hover e) (hover e') hcanonical).account

end Shardd
