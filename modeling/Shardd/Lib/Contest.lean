import Mathlib.Algebra.BigOperators.Group.Finset.Basic
import Mathlib.Data.Fintype.EquivFin
import Mathlib.Order.WellFounded
import Mathlib.Tactic.Abel
import Shardd.Lib.Map

/-!
# Contests

Entries are filed under keys in logs at several sites, and every site has a cache that names the
best entry it has compared under a key.  An entry that loses a comparison is undone by an entry
filed under a key of its own.  A site may add an entry without comparing it, except under a sole
key.

`Files` is what a site keeps, with one lemma for each way to add an entry.  When all sites have
the same entries, whatever has lost anywhere has been undone (`Files.undone`), and what remains of
the worth of all entries is the worth of one entry for each key (`sum_key`).
-/

namespace Shardd

structure Contest (E K : Type*) where
  key : E → K
  /-- The key under which what undoes an entry is filed. -/
  undo : E → K
  /-- No entry is added under this key unless it has been compared. -/
  sole : K → Prop
  beats : E → E → Prop
  irrefl : ∀ a, ¬ beats a a
  trans : ∀ {a b d}, beats a b → beats b d → beats a d

namespace Contest

variable {E K : Type*} (c : Contest E K)

lemma asymm {a b : E} (h : c.beats a b) : ¬ c.beats b a := fun h' => c.irrefl a (c.trans h h')

/-- Another entry of the same key beats it. -/
def Loses (B : Finset E) (e : E) : Prop := ∃ w ∈ B, c.key w = c.key e ∧ c.beats w e

/-- Every key has an entry that does not lose. -/
lemma exists_best {B : Finset E} {e : E} (he : e ∈ B) :
    ∃ w ∈ B, c.key w = c.key e ∧ ¬ c.Loses B w := by
  have htrans : IsTrans B fun a b => c.beats a b := ⟨fun _ _ _ => c.trans⟩
  have hirrefl : Std.Irrefl fun a b : B => c.beats a b := ⟨fun a => c.irrefl a⟩
  have hwf := Finite.wellFounded_of_trans_of_irrefl fun a b : B => c.beats a b
  obtain ⟨w, hw, hmin⟩ := hwf.has_min {x : B | c.key x = c.key e} ⟨⟨e, he⟩, rfl⟩
  refine ⟨w, w.2, hw, ?_⟩
  rintro ⟨x, hx, hkey, hbeats⟩
  exact hmin ⟨x, hx⟩ (hkey.trans hw) hbeats

variable [DecidableEq K]

/-! ## One site -/

/-- The entries of a log under the key `k`: the cache names the best one of `post`, and the entries
of `pre` have been there before an entry of the site's own was added.  An entry of `post` that is
not the best is undone, or is due to be. -/
structure Filed (mine : E → Prop) (before : E → E → Prop) (due : E → Prop) (log : List E)
    (cache : Map K E) (k : K) (pre post : List E) : Prop where
  log : (log.filter fun e => c.key e = k) = pre ++ post
  cached : ∀ e, cache k = some e → e ∈ post ∧ ∀ x ∈ post, x ≠ e → c.beats e x
  missing : cache k = none → post = []
  own : pre ≠ [] → ∃ e ∈ post, mine e ∧ ∀ x ∈ pre, before x e
  sole : c.sole k → pre = []
  undone : ∀ e ∈ post, cache k ≠ some e → due e ∨ cache (c.undo e) ≠ none

def Files (mine : E → Prop) (before : E → E → Prop) (due : E → Prop) (log : List E)
    (cache : Map K E) : Prop :=
  ∀ k, ∃ pre post, c.Filed mine before due log cache k pre post

section Site

variable {c} {mine : E → Prop} {before before' : E → E → Prop} {due due' : E → Prop}
  {log log' : List E} {cache cache' : Map K E} {k : K} {pre post : List E} {e : E}

namespace Filed

lemma mem (h : c.Filed mine before due log cache k pre post) :
    e ∈ pre ++ post ↔ e ∈ log ∧ c.key e = k := by
  rw [← h.log, List.mem_filter, decide_eq_true_iff]

lemma eq_nil (h : c.Filed mine before due log cache k pre post) (hnone : cache k = none) :
    pre = [] ∧ post = [] := by
  have hpost := h.missing hnone
  refine ⟨?_, hpost⟩
  by_contra hne
  obtain ⟨x, hx, -⟩ := h.own hne
  rw [hpost] at hx
  cases hx

/-- A change that this key does not see. -/
lemma congr (h : c.Filed mine before due log cache k pre post)
    (hlog : (log'.filter fun e => c.key e = k) = log.filter fun e => c.key e = k)
    (hcache : cache' k = cache k)
    (hundone : ∀ x, due x ∨ cache (c.undo x) ≠ none → due' x ∨ cache' (c.undo x) ≠ none) :
    c.Filed mine before due' log' cache' k pre post where
  log := hlog.trans h.log
  cached := by
    rw [hcache]
    exact h.cached
  missing := by
    rw [hcache]
    exact h.missing
  own := h.own
  sole := h.sole
  undone x hx hne := hundone x (h.undone x hx (hcache ▸ hne))

end Filed

namespace Files

lemma empty : c.Files mine before due [] fun _ => none := fun _ =>
  ⟨[], [], ⟨rfl, nofun, fun _ => rfl, fun h => absurd rfl h, fun _ => rfl, nofun⟩⟩

lemma of_cache (h : c.Files mine before due log cache) (hcache : cache k = some e) :
    e ∈ log ∧ c.key e = k := by
  obtain ⟨pre, post, hk⟩ := h k
  exact hk.mem.1 (List.mem_append_right _ (hk.cached e hcache).1)

lemma cache_ne_none (h : c.Files mine before due log cache) (he : e ∈ log) :
    cache (c.key e) ≠ none := by
  intro hnone
  obtain ⟨pre, post, hk⟩ := h (c.key e)
  obtain ⟨rfl, rfl⟩ := hk.eq_nil hnone
  cases hk.mem.2 ⟨he, rfl⟩

/-- What has been due is undone, or is due still. -/
lemma settle (h : c.Files mine before due log cache)
    (hdue : ∀ x, due x → due' x ∨ cache (c.undo x) ≠ none) :
    c.Files mine before due' log cache := by
  intro k
  obtain ⟨pre, post, hk⟩ := h k
  exact ⟨pre, post, hk.congr rfl rfl fun x hx => hx.elim (hdue x) .inr⟩

lemma mono (before' : E → E → Prop) (h : c.Files mine before due log cache)
    (hbefore : ∀ a b, before a b → before' a b) :
    c.Files mine before' due log cache := by
  intro k
  obtain ⟨pre, post, hk⟩ := h k
  refine ⟨pre, post, { hk with own := fun hne => ?_ }⟩
  obtain ⟨e, he, hmine, hpre⟩ := hk.own hne
  exact ⟨e, he, hmine, fun x hx => hbefore x e (hpre x hx)⟩

lemma insert_ne_none (w : E) {k' : K} (h : cache k' ≠ none) :
    cache.insert (c.key e) w k' ≠ none := by
  rw [Map.insert_apply]
  split
  · nofun
  · exact h

/-- Another key does not see the entry. -/
lemma other (h : c.Filed mine before due log cache k pre post) (hk : k ≠ c.key e) (w : E)
    (hdue : ∀ x, due x → due' x) :
    c.Filed mine before due' (log ++ [e]) (cache.insert (c.key e) w) k pre post := by
  refine h.congr ?_ (Map.insert_of_ne _ _ _ hk) fun x hx => hx.imp (hdue x) ?_
  · simp [Ne.symm hk]
  · exact insert_ne_none w

/-- The first entry under a key. -/
lemma append_new (h : c.Files mine before due log cache) (hnone : cache (c.key e) = none) :
    c.Files mine before due (log ++ [e]) (cache.insert (c.key e) e) := by
  intro k
  obtain ⟨pre, post, hk⟩ := h k
  by_cases hkey : k = c.key e
  · subst hkey
    obtain ⟨rfl, rfl⟩ := hk.eq_nil hnone
    refine ⟨[], [e], ?_, fun x hx => ?_, fun hx => ?_, fun hne => absurd rfl hne, fun _ => rfl,
      fun x hx hne => ?_⟩
    · simp [List.filter_append, hk.log]
    · rw [Map.insert_self] at hx
      cases hx
      exact ⟨List.mem_singleton_self e, fun x hx hne => absurd (List.mem_singleton.1 hx) hne⟩
    · rw [Map.insert_self] at hx
      cases hx
    · rw [Map.insert_self, List.mem_singleton.1 hx] at hne
      exact absurd rfl hne
  · exact ⟨pre, post, other hk hkey e fun _ => id⟩

/-- An entry of the site's own takes the place of what is cached, without a comparison. -/
lemma append_mine (h : c.Files mine before due log cache) (hsole : ¬ c.sole (c.key e))
    (hmine : mine e) (hbefore : ∀ x ∈ log, c.key x = c.key e → before x e) :
    c.Files mine before due (log ++ [e]) (cache.insert (c.key e) e) := by
  intro k
  obtain ⟨pre, post, hk⟩ := h k
  by_cases hkey : k = c.key e
  · subst hkey
    refine ⟨pre ++ post, [e], ?_, fun x hx => ?_, fun hx => ?_, fun _ => ?_,
      fun hs => absurd hs hsole, fun x hx hne => ?_⟩
    · simp [List.filter_append, hk.log]
    · rw [Map.insert_self] at hx
      cases hx
      exact ⟨List.mem_singleton_self e, fun x hx hne => absurd (List.mem_singleton.1 hx) hne⟩
    · rw [Map.insert_self] at hx
      cases hx
    · refine ⟨e, List.mem_singleton_self e, hmine, fun x hx => ?_⟩
      obtain ⟨hlog, hkey⟩ := hk.mem.1 hx
      exact hbefore x hlog hkey
    · rw [Map.insert_self, List.mem_singleton.1 hx] at hne
      exact absurd rfl hne
  · exact ⟨pre, post, other hk hkey e fun _ => id⟩

/-- Entries with keys of their own, each of them the first one or one of the site's own. -/
lemma append_all (es : List E) (h : c.Files mine before due log cache)
    (hnodup : (es.map c.key).Nodup)
    (hes : ∀ e ∈ es, cache (c.key e) = none ∨
      ¬ c.sole (c.key e) ∧ mine e ∧ ∀ x ∈ log, c.key x = c.key e → before x e) :
    c.Files mine before due (log ++ es) (es.foldl (fun m e => m.insert (c.key e) e) cache) := by
  induction es generalizing log cache with
  | nil =>
      rw [List.append_nil]
      exact h
  | cons e es ih =>
      rw [List.map_cons, List.nodup_cons] at hnodup
      have hother : ∀ x ∈ es, c.key x ≠ c.key e := fun x hx hkey =>
        hnodup.1 (hkey ▸ List.mem_map_of_mem hx)
      have hstep : c.Files mine before due (log ++ [e]) (cache.insert (c.key e) e) := by
        rcases hes e List.mem_cons_self with hnone | ⟨hsole, hmine, hbefore⟩
        · exact h.append_new hnone
        · exact h.append_mine hsole hmine hbefore
      have hrest := ih hstep hnodup.2 fun x hx => by
        rw [Map.insert_of_ne _ _ _ (hother x hx)]
        refine (hes x (List.mem_cons_of_mem _ hx)).imp id fun ⟨hsole, hmine, hbefore⟩ => ?_
        refine ⟨hsole, hmine, fun y hy hkey => ?_⟩
        rcases List.mem_append.1 hy with hy | hy
        · exact hbefore y hy hkey
        · rw [List.mem_singleton.1 hy] at hkey
          exact absurd hkey.symm (hother x hx)
      rw [List.append_assoc] at hrest
      exact hrest

/-- An entry is compared with the cached one; the loser is due to be undone. -/
lemma append_contest (h : c.Files mine before due log cache) {b w l : E}
    (hcache : cache (c.key e) = some b) (hpair : w = b ∧ l = e ∨ w = e ∧ l = b)
    (hbeats : c.beats w l) :
    c.Files mine before (fun x => due x ∨ x = l) (log ++ [e]) (cache.insert (c.key e) w) := by
  intro k
  obtain ⟨pre, post, hk⟩ := h k
  by_cases hkey : k = c.key e
  · subst hkey
    obtain ⟨hb, hbest⟩ := hk.cached b hcache
    refine ⟨pre, post ++ [e], ?_, fun x hx => ?_, fun hx => ?_, fun hne => ?_, hk.sole,
      fun x hx hne => ?_⟩
    · simp [List.filter_append, hk.log]
    · rw [Map.insert_self] at hx
      cases hx
      rcases hpair with ⟨rfl, rfl⟩ | ⟨rfl, rfl⟩
      · refine ⟨List.mem_append_left _ hb, fun x hx hne => ?_⟩
        rcases List.mem_append.1 hx with hx | hx
        · exact hbest x hx hne
        · rw [List.mem_singleton.1 hx]
          exact hbeats
      · refine ⟨List.mem_append_right _ (List.mem_singleton_self w), fun x hx hne => ?_⟩
        rcases List.mem_append.1 hx with hx | hx
        · by_cases hxl : x = l
          · rw [hxl]
            exact hbeats
          · exact c.trans hbeats (hbest x hx hxl)
        · exact absurd (List.mem_singleton.1 hx) hne
    · rw [Map.insert_self] at hx
      cases hx
    · obtain ⟨x, hx, hrest⟩ := hk.own hne
      exact ⟨x, List.mem_append_left _ hx, hrest⟩
    · rw [Map.insert_self] at hne
      by_cases hxl : x = l
      · exact .inl (.inr hxl)
      · -- what has lost before has lost to the entry that was cached
        have hold : x ∈ post ∧ x ≠ b := by
          rcases hpair with ⟨rfl, rfl⟩ | ⟨rfl, rfl⟩
          · refine ⟨?_, fun heq => hne (congrArg some heq.symm)⟩
            exact (List.mem_append.1 hx).resolve_right fun hx => hxl (List.mem_singleton.1 hx)
          · refine ⟨?_, hxl⟩
            refine (List.mem_append.1 hx).resolve_right fun hx => hne ?_
            rw [List.mem_singleton.1 hx]
        rcases hk.undone x hold.1 fun heq => hold.2 (Option.some_inj.1 (hcache.symm.trans heq)).symm
          with hdue | hknown
        · exact .inl (.inl hdue)
        · exact .inr (insert_ne_none w hknown)
  · exact ⟨pre, post, other hk hkey w fun _ => .inl⟩

/-- Under a sole key, the cache names the best entry of the log. -/
lemma cache_eq_of_sole (h : c.Files mine before due log cache) (hsole : c.sole k) (he : e ∈ log)
    (hkey : c.key e = k) (hbest : ∀ x ∈ log, c.key x = k → ¬ c.beats x e) :
    cache k = some e := by
  obtain ⟨pre, post, hk⟩ := h k
  have hpre := hk.sole hsole
  subst hpre
  rcases hcache : cache k with _ | b
  · exact absurd hcache (hkey ▸ h.cache_ne_none he)
  · obtain ⟨hb, hbeats⟩ := hk.cached b hcache
    by_contra hne
    obtain ⟨hlog, hbkey⟩ := hk.mem.1 (show b ∈ [] ++ post from hb)
    refine hbest b hlog hbkey (hbeats e (hk.mem.2 ⟨he, hkey⟩) fun heq => hne ?_)
    rw [heq]

end Files

end Site

/-! ## All sites -/

section Sites

variable {c} {N : Type*} {mine : N → E → Prop} {before : E → E → Prop} {log : N → List E}
  {cache : N → Map K E}

/-- When the sites have the same entries, an entry that loses to the best one of its key has been
undone at the site of the one or of the other. -/
theorem Files.undone (h : ∀ n, c.Files (mine n) before (fun _ => False) (log n) (cache n))
    (hsame : ∀ n m, ∀ e ∈ log n, e ∈ log m) (hbefore : ∀ a b, before a b → ¬ before b a)
    {w p : E} {n m : N} (hw : w ∈ log n) (hp : p ∈ log m) (hwmine : mine n w) (hpmine : mine m p)
    (hkey : c.key p = c.key w)
    (hone : ∀ i, ∀ a ∈ log i, ∀ b ∈ log i, mine i a → mine i b → c.key a = c.key w →
      c.key b = c.key w → a = b)
    (hbeats : c.beats w p) : ∃ i, cache i (c.undo p) ≠ none := by
  -- where both have been compared, the loser has been undone
  have hcompared : ∀ i pre post,
      c.Filed (mine i) before (fun _ => False) (log i) (cache i) (c.key w) pre post →
      w ∈ post → p ∈ post → ∃ i, cache i (c.undo p) ≠ none := by
    intro i pre post hk hwpost hppost
    refine ⟨i, (hk.undone p hppost fun hcache => ?_).resolve_left id⟩
    have hne : w ≠ p := fun heq => c.irrefl p (heq ▸ hbeats)
    exact c.asymm hbeats ((hk.cached p hcache).2 w hwpost hne)
  -- an entry of a site's own comes after what was there before
  have hown : ∀ i a pre post,
      c.Filed (mine i) before (fun _ => False) (log i) (cache i) (c.key w) pre post →
      a ∈ log i → mine i a → c.key a = c.key w → a ∈ post ∧ ∀ x ∈ pre, before x a := by
    intro i a pre post hk ha hmine hakey
    by_cases hpre : pre = []
    · subst hpre
      exact ⟨hk.mem.2 ⟨ha, hakey⟩, nofun⟩
    · obtain ⟨e, he, hemine, hbefore⟩ := hk.own hpre
      obtain ⟨helog, hekey⟩ := hk.mem.1 (List.mem_append_right _ he)
      have hae := hone i a ha e helog hmine hemine hakey hekey
      subst hae
      exact ⟨he, hbefore⟩
  obtain ⟨pre, post, hk⟩ := h n (c.key w)
  obtain ⟨pre', post', hk'⟩ := h m (c.key w)
  obtain ⟨hwpost, hprew⟩ := hown n w pre post hk hw hwmine rfl
  obtain ⟨hppost, hprep⟩ := hown m p pre' post' hk' hp hpmine hkey
  rcases List.mem_append.1 (hk.mem.2 ⟨hsame m n p hp, hkey⟩) with hpn | hpn
  · rcases List.mem_append.1 (hk'.mem.2 ⟨hsame n m w hw, rfl⟩) with hwm | hwm
    · exact absurd (hprep w hwm) (hbefore p w (hprew p hpn))
    · exact hcompared m pre' post' hk' hwm hppost
  · exact hcompared n pre post hk hwpost hpn

end Sites

/-! ## What remains -/

section Sum

variable {G : Type*} [AddCommGroup G] {B : Finset E}

/-- **What remains.**  When exactly the entries that lose are undone, the worth of all entries is
the worth of one entry for each key that undoes nothing. -/
theorem sum_key (worth : K → G) (undoing : K → Prop) [DecidablePred undoing]
    (htotal : ∀ a ∈ B, ∀ b ∈ B, c.key a = c.key b → a ≠ b → c.beats a b ∨ c.beats b a)
    (hinj : ∀ a ∈ B, ∀ b ∈ B, c.undo a = c.undo b → a = b)
    (hworth : ∀ e ∈ B, worth (c.undo e) = - worth (c.key e))
    (hundoing : ∀ e ∈ B, undoing (c.key e) ↔ ∃ l ∈ B, c.Loses B l ∧ c.undo l = c.key e)
    (hundone : ∀ l ∈ B, c.Loses B l → ∃ e ∈ B, c.key e = c.undo l) :
    ∑ e ∈ B, worth (c.key e) = ∑ k ∈ B.image c.key with ¬ undoing k, worth k := by
  classical
  have hbest : ∑ e ∈ B with ¬ c.Loses B e, worth (c.key e) = ∑ k ∈ B.image c.key, worth k := by
    have himage : B.image c.key = (B.filter fun e => ¬ c.Loses B e).image c.key := by
      ext k
      constructor
      · intro hk
        obtain ⟨e, he, rfl⟩ := Finset.mem_image.1 hk
        obtain ⟨w, hw, hkey, hloses⟩ := c.exists_best he
        exact Finset.mem_image.2 ⟨w, Finset.mem_filter.2 ⟨hw, hloses⟩, hkey⟩
      · exact fun hk => Finset.image_subset_image (Finset.filter_subset _ _) hk
    rw [himage, Finset.sum_image]
    intro a ha b hb hkey
    obtain ⟨ha, haloses⟩ := Finset.mem_filter.1 ha
    obtain ⟨hb, hbloses⟩ := Finset.mem_filter.1 hb
    by_contra hne
    rcases htotal a ha b hb hkey hne with hbeats | hbeats
    · exact hbloses ⟨a, ha, hkey, hbeats⟩
    · exact haloses ⟨b, hb, hkey.symm, hbeats⟩
  have hlosers : ∑ k ∈ B.image c.key with undoing k, worth k =
      - ∑ e ∈ B with c.Loses B e, worth (c.key e) := by
    have himage : (B.image c.key).filter undoing =
        (B.filter fun e => c.Loses B e).image c.undo := by
      ext k
      simp only [Finset.mem_filter, Finset.mem_image]
      constructor
      · rintro ⟨⟨e, he, rfl⟩, hk⟩
        obtain ⟨l, hl, hloses, hkey⟩ := (hundoing e he).1 hk
        exact ⟨l, ⟨hl, hloses⟩, hkey⟩
      · rintro ⟨l, ⟨hl, hloses⟩, rfl⟩
        obtain ⟨e, he, hkey⟩ := hundone l hl hloses
        refine ⟨⟨e, he, hkey⟩, ?_⟩
        rw [← hkey]
        exact (hundoing e he).2 ⟨l, hl, hloses, hkey.symm⟩
    rw [himage, Finset.sum_image, ← Finset.sum_neg_distrib]
    · exact Finset.sum_congr rfl fun e he => hworth e (Finset.mem_of_mem_filter e he)
    · intro a ha b hb
      exact hinj a (Finset.mem_of_mem_filter a ha) b (Finset.mem_of_mem_filter b hb)
  have hkeys := Finset.sum_filter_add_sum_filter_not (B.image c.key) undoing worth
  have hall := Finset.sum_filter_add_sum_filter_not B (c.Loses B) fun e => worth (c.key e)
  rw [← hall, hbest, ← hkeys, hlosers]
  abel

end Sum

end Contest

/-! ## Pairs -/

/-- What is paired with its opposite is worth nothing. -/
theorem sum_paired {K G : Type*} [AddCommGroup G] {s : Finset K} {p : K → Prop} [DecidablePred p]
    (r : K → K → Prop) (worth : K → G) (hp : ∀ k, p k ↔ (∃ b, r k b) ∨ ∃ a, r a k)
    (hright : ∀ {a b b'}, r a b → r a b' → b = b') (hleft : ∀ {a a' b}, r a b → r a' b → a = a')
    (hapart : ∀ {a b d}, r a b → ¬ r b d) (hmem : ∀ {a b}, r a b → (a ∈ s ↔ b ∈ s))
    (hworth : ∀ {a b}, r a b → worth b = - worth a) : ∑ k ∈ s with p k, worth k = 0 := by
  have hpartner : ∀ k ∈ s.filter p, ∃ k', r k k' ∨ r k' k := by
    intro k hk
    rcases (hp k).1 (Finset.mem_filter.1 hk).2 with ⟨b, hb⟩ | ⟨a, ha⟩
    · exact ⟨b, .inl hb⟩
    · exact ⟨a, .inr ha⟩
  choose partner hpaired using hpartner
  have hpmem : ∀ k hk, partner k hk ∈ s.filter p := by
    intro k hk
    obtain ⟨hks, -⟩ := Finset.mem_filter.1 hk
    rcases hpaired k hk with h | h
    · exact Finset.mem_filter.2 ⟨(hmem h).1 hks, (hp _).2 (.inr ⟨_, h⟩)⟩
    · exact Finset.mem_filter.2 ⟨(hmem h).2 hks, (hp _).2 (.inl ⟨_, h⟩)⟩
  refine Finset.sum_involution partner (fun k hk => ?_) (fun k hk _ heq => ?_) hpmem fun k hk => ?_
  · rcases hpaired k hk with h | h
    · rw [hworth h, add_neg_cancel]
    · rw [hworth h, neg_add_cancel]
  · have h := hpaired k hk
    rw [heq, or_self] at h
    exact hapart h h
  · rcases hpaired k hk with h | h <;> rcases hpaired _ (hpmem k hk) with h' | h'
    · exact absurd h' (hapart h)
    · exact hleft h' h
    · exact hright h' h
    · exact absurd h (hapart h')

end Shardd
