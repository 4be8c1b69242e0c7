import Mathlib.Data.List.Infix
import Mathlib.Data.Option.Basic
import Mathlib.Tactic.Common

/-!
# `LIKE` and `ILIKE`

Patterns of a relational server: `%` stands for any text, `_` for one character, and `\` takes the
next character as it is.  `ILIKE` matches without regard to case, by the letters of the server's
locale.  A statement compares with nulls, so its conditions have three values.
-/

namespace Shardd.Postgres

/-! ## Patterns -/

inductive LikeToken
  | any
  | one
  | char (c : Char)
  deriving DecidableEq

/-- The tokens of a pattern, unless it ends in an escape. -/
def likeTokens : List Char → Option (List LikeToken)
  | [] => some []
  | '%' :: l => (likeTokens l).map (.any :: ·)
  | '_' :: l => (likeTokens l).map (.one :: ·)
  | ['\\'] => none
  | '\\' :: c :: l => (likeTokens l).map (.char c :: ·)
  | c :: l => (likeTokens l).map (.char c :: ·)

/-- The text is one that the tokens stand for. -/
def tokensMatch : List LikeToken → List Char → Bool
  | [], s => s.isEmpty
  | .any :: p, s => s.tails.any fun t => tokensMatch p t
  | .one :: _, [] => false
  | .one :: p, _ :: s => tokensMatch p s
  | .char _ :: _, [] => false
  | .char c :: p, d :: s => c == d && tokensMatch p s

def LikePlain (c : Char) : Prop := c ≠ '%' ∧ c ≠ '_' ∧ c ≠ '\\'

instance : DecidablePred LikePlain := fun _ => inferInstanceAs (Decidable (_ ∧ _ ∧ _))

section Tokens

variable {c : Char} {l l' s : List Char} {p : List LikeToken}

lemma likeTokens_cons_of_plain (hc : LikePlain c) :
    likeTokens (c :: l) = (likeTokens l).map (.char c :: ·) := by
  obtain ⟨hany, hone, hescape⟩ := hc
  rw [likeTokens]
  · exact fun h => hany h
  · exact fun h => hone h
  · exact fun h => absurd h hescape
  · exact fun _ _ h => absurd h hescape

lemma likePlain_of_last (hany : c ≠ '%') (hone : c ≠ '_') (hend : c = '\\' → l = [] → False)
    (hescape : ∀ d l', c = '\\' → l = d :: l' → False) : LikePlain c := by
  refine ⟨hany, hone, fun h => ?_⟩
  cases l with
  | nil => exact hend h rfl
  | cons d l => exact hescape d l h rfl

/-- A plain text in a pattern stands for itself. -/
lemma likeTokens_append_of_plain (hl : ∀ c ∈ l, LikePlain c) :
    likeTokens (l ++ l') = (likeTokens l').map (l.map .char ++ ·) := by
  induction l with
  | nil => simp
  | cons c l ih =>
      obtain ⟨hc, hl⟩ := List.forall_mem_cons.1 hl
      rw [List.cons_append, likeTokens_cons_of_plain hc, ih hl, Option.map_map]
      rfl

lemma isSome_likeTokens_percent (l : List Char) : (likeTokens (l ++ ['%'])).isSome = true := by
  fun_induction likeTokens l with
  | case1 => rfl
  | case2 l ih => simpa [likeTokens] using ih
  | case3 l ih => simpa [likeTokens] using ih
  | case4 => rfl
  | case5 c l ih => simpa [likeTokens] using ih
  | case6 c l hany hone hend hescape ih =>
      have hc : LikePlain c := likePlain_of_last hany hone hend hescape
      rw [List.cons_append, likeTokens_cons_of_plain hc, Option.isSome_map]
      exact ih

lemma tokensMatch_any_iff :
    tokensMatch (.any :: p) s = true ↔ ∃ t, t <:+ s ∧ tokensMatch p t = true := by
  simp [tokensMatch]

lemma tokensMatch_plain_append_iff :
    tokensMatch (l.map .char ++ p) s = true ↔ ∃ t, s = l ++ t ∧ tokensMatch p t = true := by
  induction l generalizing s with
  | nil => simp
  | cons c l ih =>
      cases s with
      | nil => simp [tokensMatch]
      | cons d s =>
          rw [List.map_cons, List.cons_append, tokensMatch, Bool.and_eq_true, beq_iff_eq, ih]
          simp only [List.cons_append, List.cons.injEq]
          constructor
          · rintro ⟨rfl, t, rfl, ht⟩
            exact ⟨t, ⟨rfl, rfl⟩, ht⟩
          · rintro ⟨t, ⟨rfl, rfl⟩, ht⟩
            exact ⟨rfl, t, rfl, ht⟩

end Tokens

/-- A pattern that the server takes. -/
structure LikePattern where
  text : List Char
  wellFormed : (likeTokens text).isSome = true

namespace LikePattern

def tokens (p : LikePattern) : List LikeToken := (likeTokens p.text).get p.wellFormed

/-- `%s%`. -/
def containing (s : List Char) : LikePattern where
  text := '%' :: (s ++ ['%'])
  wellFormed := isSome_likeTokens_percent ('%' :: s)

lemma tokens_containing_of_plain {s : List Char} (hs : ∀ c ∈ s, LikePlain c) :
    (containing s).tokens = .any :: (s.map .char ++ [.any]) := by
  refine Option.get_of_eq_some _ ?_
  have htail : likeTokens (s ++ ['%']) = some (s.map .char ++ [.any]) := by
    rw [likeTokens_append_of_plain hs]
    rfl
  have hhead : likeTokens ('%' :: (s ++ ['%'])) =
      (likeTokens (s ++ ['%'])).map (.any :: ·) := rfl
  rw [containing, hhead, htail]
  rfl

/-- Without special characters `%s%` stands for the texts that contain `s`. -/
theorem containing_matches_iff_of_plain {s t : List Char} (hs : ∀ c ∈ s, LikePlain c) :
    tokensMatch (containing s).tokens t = true ↔ s <:+: t := by
  rw [tokens_containing_of_plain hs, tokensMatch_any_iff]
  simp only [tokensMatch_plain_append_iff, tokensMatch_any_iff, List.infix_iff_prefix_suffix]
  constructor
  · rintro ⟨_, hsuffix, rest, rfl, -⟩
    exact ⟨_, List.prefix_append _ _, hsuffix⟩
  · rintro ⟨_, ⟨rest, rfl⟩, hsuffix⟩
    exact ⟨_, hsuffix, rest, rfl, [], List.nil_suffix, rfl⟩

end LikePattern

/-! ## ASCII letters -/

lemma toNat_toLower_of_upper {d : Char} (h : 65 ≤ d.toNat ∧ d.toNat ≤ 90) :
    d.toLower.toNat = d.toNat + 32 := by
  have hval : d.val ≥ 'A'.val ∧ d.val ≤ 'Z'.val := by
    rw [ge_iff_le, UInt32.le_iff_toNat_le, UInt32.le_iff_toNat_le]
    exact h
  have hd : d.val.toNat ≤ 90 := h.2
  unfold Char.toLower
  rw [dif_pos hval]
  change (d.val + ('a'.val - 'A'.val)).toNat = d.val.toNat + 32
  rw [UInt32.toNat_add]
  have h32 : ('a'.val - 'A'.val).toNat = 32 := by decide
  rw [h32]
  omega

lemma toLower_of_not_upper {d : Char} (h : ¬ (65 ≤ d.toNat ∧ d.toNat ≤ 90)) : d.toLower = d := by
  refine dif_neg fun hval => h ?_
  rw [ge_iff_le, UInt32.le_iff_toNat_le, UInt32.le_iff_toNat_le] at hval
  exact hval

lemma toLower_eq_iff_of_not_plain {c d : Char} (hc : ¬ LikePlain c) : d.toLower = c ↔ d = c := by
  by_cases h : 65 ≤ d.toNat ∧ d.toNat ≤ 90
  · have hspecial : c.toNat = 37 ∨ c.toNat = 95 ∨ c.toNat = 92 := by
      rw [LikePlain, not_and_or, not_and_or, not_not, not_not, not_not] at hc
      rcases hc with rfl | rfl | rfl <;> decide
    have hlower := toNat_toLower_of_upper h
    constructor
    · rintro rfl
      omega
    · rintro rfl
      omega
  · rw [toLower_of_not_upper h]

/-! ## Locales -/

/-- How the server lowers letters and orders texts.  Only letters are lowered, and texts that are
not the same are never equal in the order. -/
structure ServerLocale where
  lower : Char → Char
  collate : String → String → Ordering
  lower_eq_iff : ∀ {c d}, ¬ LikePlain c → (lower d = c ↔ d = c)
  transCmp : Std.TransCmp collate
  lawfulEqCmp : Std.LawfulEqCmp collate

namespace ServerLocale

/-- Texts are compared byte by byte, and only ASCII letters are lowered. -/
def ascii : ServerLocale where
  lower := Char.toLower
  collate := compare
  lower_eq_iff := toLower_eq_iff_of_not_plain
  transCmp := inferInstance
  lawfulEqCmp := inferInstance

variable (locale : ServerLocale) {l : List Char}

lemma likePlain_lower_iff {c : Char} : LikePlain (locale.lower c) ↔ LikePlain c := by
  have hany : locale.lower c = '%' ↔ c = '%' := locale.lower_eq_iff (by decide)
  have hone : locale.lower c = '_' ↔ c = '_' := locale.lower_eq_iff (by decide)
  have hescape : locale.lower c = '\\' ↔ c = '\\' := locale.lower_eq_iff (by decide)
  rw [LikePlain, LikePlain, ne_eq, ne_eq, ne_eq, hany, hone, hescape]

lemma lower_of_not_plain {c : Char} (hc : ¬ LikePlain c) : locale.lower c = c :=
  (locale.lower_eq_iff hc).2 rfl

lemma isSome_likeTokens_lower (l : List Char) :
    (likeTokens (l.map locale.lower)).isSome = (likeTokens l).isSome := by
  have hany : locale.lower '%' = '%' := locale.lower_of_not_plain (by decide)
  have hone : locale.lower '_' = '_' := locale.lower_of_not_plain (by decide)
  have hescape : locale.lower '\\' = '\\' := locale.lower_of_not_plain (by decide)
  fun_induction likeTokens l with
  | case1 => rfl
  | case2 l ih => simpa [likeTokens, hany] using ih
  | case3 l ih => simpa [likeTokens, hone] using ih
  | case4 =>
      rw [List.map_singleton, hescape]
      rfl
  | case5 c l ih => simpa [likeTokens, hescape] using ih
  | case6 c l hc hc' hend hnext ih =>
      have hplain : LikePlain c := likePlain_of_last hc hc' hend hnext
      rw [List.map_cons, likeTokens_cons_of_plain (locale.likePlain_lower_iff.2 hplain),
        Option.isSome_map, Option.isSome_map, ih]

/-- A pattern in lower case. -/
def lowerPattern (p : LikePattern) : LikePattern where
  text := p.text.map locale.lower
  wellFormed := (locale.isSome_likeTokens_lower p.text).trans p.wellFormed

lemma lowerPattern_containing (s : List Char) :
    locale.lowerPattern (.containing s) = .containing (s.map locale.lower) := by
  have hany : locale.lower '%' = '%' := locale.lower_of_not_plain (by decide)
  simp [lowerPattern, LikePattern.containing, hany]

/-- `s ILIKE p`. -/
def ilike (s : Option String) (p : LikePattern) : Option Bool :=
  s.map fun s => tokensMatch (locale.lowerPattern p).tokens (s.toList.map locale.lower)

/-- Without special characters `ILIKE '%search%'` looks for the search in lower case. -/
theorem ilike_containing_iff_of_plain {s : Option String} {search : List Char}
    (hsearch : ∀ c ∈ search, LikePlain c) :
    locale.ilike s (.containing search) = some true ↔
      ∃ t ∈ s, search.map locale.lower <:+: t.toList.map locale.lower := by
  have hlower : ∀ c ∈ search.map locale.lower, LikePlain c :=
    List.forall_mem_map.2 fun c hc => locale.likePlain_lower_iff.2 (hsearch c hc)
  rw [ilike, Option.map_eq_some_iff, lowerPattern_containing]
  exact exists_congr fun t =>
    and_congr_right fun _ => LikePattern.containing_matches_iff_of_plain hlower

end ServerLocale

/-! ## Conditions -/

/-- `a OR b`. -/
def sqlOr : Option Bool → Option Bool → Option Bool
  | some true, _ => some true
  | _, some true => some true
  | some false, some false => some false
  | _, _ => none

lemma sqlOr_eq_true_iff {a b : Option Bool} :
    sqlOr a b = some true ↔ a = some true ∨ b = some true := by
  rcases a with _ | _ | _ <;> rcases b with _ | _ | _ <;> decide

end Shardd.Postgres
