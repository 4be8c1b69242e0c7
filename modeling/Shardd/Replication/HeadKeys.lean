import Shardd.Replication.CatchUp

/-!
# Heads on the wire

A heads map travels under the texts of its keys.  A text stands for one key, is read back as that
key, carries its head and makes a peer ask for its range exactly when neither the bucket nor the
origin of the key holds the separator.  Buckets and origins are free text on both ways into a node.
-/

namespace Shardd

variable {D : Type}

/-- The text of `key` is read back as `key` and is the text of no other key; in the heads map of a
node it carries the head of `key`, and a peer that is behind asks for what it misses of `key`. -/
structure EpochKey.Travels (D : Type) (key : EpochKey) : Prop where
  decoded : decodeHeadKey (encodeHeadKey key) = some key
  injective : ∀ key', encodeHeadKey key' = encodeHeadKey key → key' = key
  head : ∀ (s : SharedState D) (heads : Map String ℕ), s.GetHeads heads →
    heads (encodeHeadKey key) = s.heads key
  request : ∀ (localHeads : Map String ℕ) (myHead n : ℕ),
    (localHeads (encodeHeadKey key)).getD 0 = myHead → myHead < n →
    ∃ req, rangeRequest localHeads (encodeHeadKey key, n) = some req ∧
      req.key = key ∧ req.fromSeq = myHead + 1 ∧ req.toSeq = min (myHead + 5000) n

/-- A separator in the origin can be moved into the bucket. -/
lemma exists_encodeHeadKey_eq {key : EpochKey} (horigin : '\t' ∈ key.2.1.toList) :
    ∃ key', key' ≠ key ∧ encodeHeadKey key' = encodeHeadKey key := by
  obtain ⟨x, y, hsplit⟩ := List.append_of_mem horigin
  refine ⟨(String.ofList (key.1.toList ++ '\t' :: x), String.ofList y, key.2.2), ?_, ?_⟩
  · intro heq
    have hbucket := congrArg (fun k : EpochKey => k.1.toList.length) heq
    simp at hbucket
  · refine String.toList_injective ?_
    rw [toList_encodeHeadKey, toList_encodeHeadKey, hsplit]
    simp

/-- The heads map of a node holds the head of a key whose text is its own. -/
lemma heads_encodeHeadKey {s : SharedState D} {heads : Map String ℕ} (hheads : s.GetHeads heads)
    {key : EpochKey} (hinj : ∀ key', encodeHeadKey key' = encodeHeadKey key → key' = key) :
    heads (encodeHeadKey key) = s.heads key := by
  rcases hentry : heads (encodeHeadKey key) with _ | n
  · by_contra hne
    exact hheads.total key (Ne.symm hne) hentry
  · obtain ⟨key', htext, hhead⟩ := hheads.some _ n hentry
    rw [hinj key' htext] at hhead
    exact hhead.symm

/-- **Heads on the wire.** -/
theorem travels_iff (key : EpochKey) (hepoch : key.2.2 < 2 ^ 32) :
    key.Travels D ↔ key.TabFree := by
  constructor
  · intro h
    refine ⟨notMem_of_decode h.decoded, fun horigin => ?_⟩
    obtain ⟨key', hne, htext⟩ := exists_encodeHeadKey_eq horigin
    exact hne (h.injective key' htext)
  · intro htab
    have hdecoded := decode_encodeHeadKey htab.1 hepoch
    refine ⟨hdecoded, fun key' => encodeHeadKey_inj_of_tabFree htab,
      fun s heads hheads => heads_encodeHeadKey hheads fun key' =>
        encodeHeadKey_inj_of_tabFree htab, fun localHeads myHead n hhead hbehind => ?_⟩
    have hrequest : rangeRequest localHeads (encodeHeadKey key, n) =
        some { bucket := key.1, originNodeId := key.2.1, originEpoch := key.2.2
               fromSeq := myHead + 1, toSeq := min (myHead + 5000) n } := by
      simp only [rangeRequest, hdecoded, hhead]
      exact if_neg (by omega)
    exact ⟨_, hrequest, rfl, rfl, rfl⟩

/-- The key of an ordinary bucket. -/
theorem travels_iff_bucket :
    EpochKey.Travels Unit ("bucket", "node", 1) ↔ EpochKey.TabFree ("bucket", "node", 1) :=
  travels_iff ("bucket", "node", 1) (by decide)

/-- A node takes a deposit on a bucket with a separator; the head it then has is read back by its
peers as that of another key. -/
theorem not_travels_of_deposit :
    let deposit := LocalCreateInput.legacy "a\tb" "alice" 5 none 0 "n1" false
    let s : SharedState Unit :=
      (NodeM.exec (createLocalEvents (Env.plain "node" 1000) deposit).run (.blank .empty)).2
    s.heads ("a\tb", "node", 1) = some 1 ∧
      decodeHeadKey (encodeHeadKey ("a\tb", "node", 1)) = some ("a", "b\tnode", 1) ∧
      ¬ EpochKey.Travels Unit ("a\tb", "node", 1) := by
  refine ⟨by decide +kernel, by decide +kernel, fun h => ?_⟩
  exact absurd (notMem_of_decode h.decoded) (by decide)

end Shardd
