import Shardd.Lib.Hex
import Shardd.Lib.Text
import Shardd.Types

/-!
# Bucket names behind the gateway (`apps/gateway`)

Every tenant names buckets as it likes.  The gateway keeps the tenants apart by filing a bucket
under a name made from the user's id and the hexadecimal form of the bucket's name, and takes such
names apart again on the way back.
-/

namespace Shardd

/-! ## User ids -/

structure Uuid where
  bytes : List UInt8
  length_bytes : bytes.length = 16
  deriving DecidableEq

namespace Uuid

variable (u : Uuid)

/-- `8-4-4-4-12`, in lower case. -/
def hyphenated : List Char :=
  hexEncode (u.bytes.take 4) ++ '-' :: (hexEncode ((u.bytes.drop 4).take 2) ++
    '-' :: (hexEncode ((u.bytes.drop 6).take 2) ++
      '-' :: (hexEncode ((u.bytes.drop 8).take 2) ++ '-' :: hexEncode (u.bytes.drop 10))))

/-- `to_string`. -/
def toText : String := String.ofList u.hyphenated

lemma isHexDigit_or_of_mem {c : Char} (h : c ∈ u.hyphenated) : IsHexDigit c ∨ c = '-' := by
  simp only [hyphenated, List.mem_append, List.mem_cons] at h
  rcases h with h | rfl | h | rfl | h | rfl | h | rfl | h <;>
    first | exact .inr rfl | exact .inl (isHexDigit_of_mem_hexEncode h)

lemma length_hyphenated : u.hyphenated.length = 36 := by
  have hlen := u.length_bytes
  simp only [hyphenated, List.length_append, List.length_cons, length_hexEncode, List.length_take,
    List.length_drop, hlen]
  decide

/-- Without its hyphens the text of an id is the hexadecimal form of its bytes. -/
lemma filter_hyphenated : u.hyphenated.filter (· ≠ '-') = hexEncode u.bytes := by
  have hkeep : ∀ bytes, (hexEncode bytes).filter (· ≠ '-') = hexEncode bytes := fun bytes => by
    refine List.filter_eq_self.2 fun c hc => ?_
    have hne : c ≠ '-' := fun heq =>
      absurd (isHexDigit_of_mem_hexEncode hc) (heq ▸ (by decide : ¬ IsHexDigit '-'))
    simpa using hne
  have hbytes : u.bytes = u.bytes.take 4 ++ ((u.bytes.drop 4).take 2 ++ ((u.bytes.drop 6).take 2 ++
      ((u.bytes.drop 8).take 2 ++ u.bytes.drop 10))) := by
    have hcut : ∀ n, (u.bytes.drop n).take 2 ++ u.bytes.drop (n + 2) = u.bytes.drop n := fun n => by
      rw [← List.drop_drop, List.take_append_drop]
    rw [hcut 8, hcut 6, hcut 4, List.take_append_drop]
  conv_rhs => rw [hbytes]
  simp only [hyphenated, List.filter_append, List.filter_cons, hkeep, hexEncode_append]
  simp

lemma hyphenated_injective : Function.Injective hyphenated := by
  intro u v h
  have hbytes := hexEncode_injective (by rw [← filter_hyphenated, ← filter_hyphenated, h] :
    hexEncode u.bytes = hexEncode v.bytes)
  obtain ⟨bytes, _⟩ := u
  obtain ⟨bytes', _⟩ := v
  obtain rfl : bytes = bytes' := hbytes
  rfl

end Uuid

/-! ## Names -/

def sanitizeNamespaceValue (value : String) : String :=
  String.ofList (value.toList.map fun ch =>
    if ch.isAlphanum || ch == '_' || ch == '-' then ch else '_')

def internalBucketForUser (userId : Uuid) (bucket : String) : String :=
  "user_" ++ sanitizeNamespaceValue userId.toText ++ "__bucket_" ++
    String.ofList (hexEncode bucket.toByteArray.data.toList)

def internalBucketPrefix (userId : Uuid) : String :=
  "user_" ++ sanitizeNamespaceValue userId.toText ++ "__bucket_"

def externalBucketFromInternalUser (userId : Uuid) (internalBucket : String) : Option String := do
  let encoded ← stripPrefix (internalBucketPrefix userId).toList internalBucket.toList
  let bytes ← hexDecode encoded
  String.fromUTF8? ⟨bytes.toArray⟩

variable {u u' : Uuid} {bucket bucket' text : String}

/-- The text of an id passes unchanged. -/
lemma sanitizeNamespaceValue_toText (u : Uuid) : sanitizeNamespaceValue u.toText = u.toText := by
  refine congrArg String.ofList ?_
  rw [Uuid.toText, String.toList_ofList]
  refine (List.map_congr_left fun c hc => ?_).trans (List.map_id _)
  rcases u.isHexDigit_or_of_mem hc with hhex | rfl
  · rw [if_pos (by simp [hhex.isAlphanum])]
    rfl
  · rfl

lemma toList_internalBucketPrefix (u : Uuid) :
    (internalBucketPrefix u).toList = "user_".toList ++ (u.hyphenated ++ "__bucket_".toList) := by
  rw [internalBucketPrefix, sanitizeNamespaceValue_toText]
  simp only [String.toList_append, Uuid.toText, String.toList_ofList, List.append_assoc]

lemma toList_internalBucketForUser (u : Uuid) (bucket : String) :
    (internalBucketForUser u bucket).toList =
      (internalBucketPrefix u).toList ++ hexEncode bucket.toByteArray.data.toList := by
  have happend : internalBucketForUser u bucket = internalBucketPrefix u ++
      String.ofList (hexEncode bucket.toByteArray.data.toList) := rfl
  rw [happend, String.toList_append, String.toList_ofList]

/-- The characters of an internal name. -/
lemma isNameChar_of_mem {c : Char} (h : c ∈ (internalBucketForUser u bucket).toList) :
    c.isAlphanum = true ∨ c = '_' ∨ c = '-' := by
  have hplain : ∀ c ∈ "user_".toList ++ "__bucket_".toList, c.isAlphanum = true ∨ c = '_' := by
    have hall : ("user_".toList ++ "__bucket_".toList).all
        (fun c => c.isAlphanum || c == '_') = true := by decide
    simpa only [List.all_eq_true, Bool.or_eq_true, beq_iff_eq] using hall
  rw [toList_internalBucketForUser, toList_internalBucketPrefix] at h
  simp only [List.mem_append] at h
  rcases h with (h | h | h) | h
  · exact (hplain c (List.mem_append_left _ h)).imp_right .inl
  · exact (u.isHexDigit_or_of_mem h).imp (·.isAlphanum) .inr
  · exact (hplain c (List.mem_append_right _ h)).imp_right .inl
  · exact .inl (isHexDigit_of_mem_hexEncode h).isAlphanum

/-- An internal name holds none of the separators that the node and the gateway join names with. -/
lemma notMem_internalBucketForUser {c : Char} (h : c.isAlphanum = false) (hunder : c ≠ '_')
    (hdash : c ≠ '-') : c ∉ (internalBucketForUser u bucket).toList := fun hc => by
  rcases isNameChar_of_mem hc with hc | hc | hc
  · rw [h] at hc
    cases hc
  · exact hunder hc
  · exact hdash hc

lemma head_internalBucketForUser :
    (internalBucketForUser u bucket).toList.head? = some 'u' := by
  rw [toList_internalBucketForUser, toList_internalBucketPrefix]
  rfl

lemma head_of_isReservedBucketName (h : isReservedBucketName text = true) :
    text.toList.head? = some '_' := by
  simp only [isReservedBucketName, Bool.or_eq_true, beq_iff_eq, List.isPrefixOf_iff_prefix] at h
  rcases h with rfl | ⟨rest, hrest⟩
  · rfl
  · rw [← hrest]
    rfl

/-- No internal name is reserved. -/
lemma isReservedBucketName_internalBucketForUser :
    isReservedBucketName (internalBucketForUser u bucket) = false := by
  by_contra h
  have hhead := head_of_isReservedBucketName (Bool.eq_true_of_not_eq_false h)
  rw [head_internalBucketForUser] at hhead
  exact absurd hhead (by decide)

/-- A bucket is called again what its user calls it. -/
theorem externalBucketFromInternalUser_internal (u : Uuid) (bucket : String) :
    externalBucketFromInternalUser u (internalBucketForUser u bucket) = some bucket := by
  have hstrip := stripPrefix_eq_some_iff.2 (toList_internalBucketForUser u bucket)
  have hutf8 : String.fromUTF8? ⟨bucket.toByteArray.data.toList.toArray⟩ = some bucket :=
    dif_pos bucket.isValidUTF8
  simp only [externalBucketFromInternalUser, hstrip, hexDecode_hexEncode, hutf8,
    Option.bind_eq_bind, Option.bind_some]

lemma length_internalBucketPrefix (u : Uuid) : (internalBucketPrefix u).toList.length = 50 := by
  rw [toList_internalBucketPrefix, List.length_append, List.length_append, u.length_hyphenated]
  rfl

/-- The prefix of a user tells who the user is. -/
lemma eq_of_append {rest rest' : List Char}
    (h : (internalBucketPrefix u).toList ++ rest = (internalBucketPrefix u').toList ++ rest') :
    u = u' ∧ rest = rest' := by
  have hlen : (internalBucketPrefix u).toList.length = (internalBucketPrefix u').toList.length := by
    rw [length_internalBucketPrefix, length_internalBucketPrefix]
  obtain ⟨hstart, hrest⟩ := List.append_inj h hlen
  rw [toList_internalBucketPrefix, toList_internalBucketPrefix] at hstart
  have hids := (List.append_inj (List.append_cancel_left hstart)
    (by rw [u.length_hyphenated, u'.length_hyphenated])).1
  exact ⟨Uuid.hyphenated_injective hids, hrest⟩

/-- Two buckets have the same internal name only if they are the same bucket of the same user. -/
theorem internalBucketForUser_inj
    (h : internalBucketForUser u bucket = internalBucketForUser u' bucket') :
    u = u' ∧ bucket = bucket' := by
  have hlist := congrArg String.toList h
  rw [toList_internalBucketForUser, toList_internalBucketForUser] at hlist
  obtain ⟨hu, hhex⟩ := eq_of_append hlist
  have hdata := Array.toList_inj.1 (hexEncode_injective hhex)
  exact ⟨hu, String.toByteArray_inj.1 (ByteArray.ext hdata)⟩

/-- A name of another user's bucket is not taken apart. -/
lemma externalBucketFromInternalUser_of_ne (h : u' ≠ u) :
    externalBucketFromInternalUser u (internalBucketForUser u' bucket) = none := by
  have hstrip : stripPrefix (internalBucketPrefix u).toList
      (internalBucketForUser u' bucket).toList = none := by
    refine Option.eq_none_iff_forall_ne_some.2 fun rest hrest => ?_
    rw [stripPrefix_eq_some_iff, toList_internalBucketForUser] at hrest
    exact h (eq_of_append hrest).1
  simp only [externalBucketFromInternalUser, hstrip, Option.bind_eq_bind, Option.bind_none]

/-- A text that does not begin as internal names do is nobody's bucket. -/
lemma externalBucketFromInternalUser_of_head {c : Char} (h : text.toList.head? = some c)
    (hc : c ≠ 'u') : externalBucketFromInternalUser u text = none := by
  have hstrip : stripPrefix (internalBucketPrefix u).toList text.toList = none := by
    refine Option.eq_none_iff_forall_ne_some.2 fun rest hrest => ?_
    rw [stripPrefix_eq_some_iff.1 hrest, toList_internalBucketPrefix] at h
    exact hc (Option.some.inj h).symm
  simp only [externalBucketFromInternalUser, hstrip, Option.bind_eq_bind, Option.bind_none]

/-- A reserved name is nobody's bucket. -/
lemma externalBucketFromInternalUser_of_reserved (h : isReservedBucketName text = true) :
    externalBucketFromInternalUser u text = none :=
  externalBucketFromInternalUser_of_head (head_of_isReservedBucketName h) (by decide)

end Shardd
