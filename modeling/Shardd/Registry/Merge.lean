import Mathlib.Data.List.TFAE
import Mathlib.Data.List.Perm.Basic
import Mathlib.Tactic.TFAE
import Shardd.Registry.Entry

/-!
# When the registry merge is a join

`NodeRegistryEntry::merge` keeps the least first time, the greatest last time and the tombstone,
and these three are joins.  The address and the status come from the newer entry, and two entries
of the same time are told apart by the side they stand on; an entry that is newer than an address
passes the address on as if it were its own.  So the laws of a join hold up to exactly that, and
two registries that merged the same entries in different orders agree exactly when the newest
entries of each node settle its status and its address.
-/

namespace Shardd

namespace NodeRegistryEntry

variable (a b c : NodeRegistryEntry)

/-! ## Two entries, and three -/

/-- Entries of one time name one address, if any, and one status, unless one is a tombstone. -/
def Commutes : Prop :=
  a.lastSeenAtUnixMs = b.lastSeenAtUnixMs →
    (a.addr = "" ∨ b.addr = "" ∨ a.addr = b.addr) ∧
      (a.status = .decommissioned ∨ b.status = .decommissioned ∨ a.status = b.status)

/-- The one of three entries that names no address is not newer than the address that is newer
of the other two, or as new where it stands between it and an older one. -/
def Associates : Prop :=
  (a.addr = "" → b.addr ≠ "" → c.addr ≠ "" → b.addr ≠ c.addr →
    ¬ (b.lastSeenAtUnixMs ≤ c.lastSeenAtUnixMs ∧ c.lastSeenAtUnixMs < a.lastSeenAtUnixMs)) ∧
  (b.addr = "" → a.addr ≠ "" → c.addr ≠ "" → a.addr ≠ c.addr →
    ¬ (a.lastSeenAtUnixMs ≤ b.lastSeenAtUnixMs ∧ c.lastSeenAtUnixMs < b.lastSeenAtUnixMs)) ∧
  (c.addr = "" → a.addr ≠ "" → b.addr ≠ "" → a.addr ≠ b.addr →
    ¬ (b.lastSeenAtUnixMs < a.lastSeenAtUnixMs ∧ a.lastSeenAtUnixMs ≤ c.lastSeenAtUnixMs))

lemma latestNonEmptyAddr_comm_iff :
    latestNonEmptyAddr a b = latestNonEmptyAddr b a ↔
      (a.lastSeenAtUnixMs = b.lastSeenAtUnixMs →
        a.addr = "" ∨ b.addr = "" ∨ a.addr = b.addr) := by
  rcases lt_trichotomy a.lastSeenAtUnixMs b.lastSeenAtUnixMs with h | h | h
  · simp [latestNonEmptyAddr, h, h.ne, h.not_gt]
  · by_cases ha : a.addr = "" <;> by_cases hb : b.addr = "" <;>
      simp [latestNonEmptyAddr, h, ha, hb, eq_comm]
  · simp [latestNonEmptyAddr, h, h.ne', h.not_gt]

lemma mergedStatus_comm_iff :
    a.mergedStatus b = b.mergedStatus a ↔
      (a.lastSeenAtUnixMs = b.lastSeenAtUnixMs →
        a.status = .decommissioned ∨ b.status = .decommissioned ∨ a.status = b.status) := by
  by_cases ha : a.status = .decommissioned
  · simp [mergedStatus, ha]
  by_cases hb : b.status = .decommissioned
  · simp [mergedStatus, hb]
  rcases lt_trichotomy a.lastSeenAtUnixMs b.lastSeenAtUnixMs with h | h | h
  · simp [mergedStatus, ha, hb, h, h.ne, h.not_gt]
  · simp [mergedStatus, ha, hb, h]
  · simp [mergedStatus, ha, hb, h, h.ne', h.not_gt]

lemma merged_comm_iff (h : a.nodeId = b.nodeId) : a.merged b = b.merged a ↔ a.Commutes b := by
  rw [merged, merged, mk.injEq]
  simp only [h, min_comm b.firstSeenAtUnixMs, max_comm b.lastSeenAtUnixMs, true_and,
    latestNonEmptyAddr_comm_iff, mergedStatus_comm_iff, Commutes, imp_and]

lemma mergedStatus_assoc :
    (a.merged b).mergedStatus c = a.mergedStatus (b.merged c) := by
  simp only [mergedStatus, merged]
  grind

lemma latestNonEmptyAddr_assoc_iff :
    latestNonEmptyAddr (a.merged b) c = latestNonEmptyAddr a (b.merged c) ↔ a.Associates b c := by
  simp only [latestNonEmptyAddr, merged, Associates]
  grind

lemma merged_assoc_iff : (a.merged b).merged c = a.merged (b.merged c) ↔ a.Associates b c := by
  rw [← latestNonEmptyAddr_assoc_iff]
  refine ⟨fun h => congrArg addr h, fun haddr => ?_⟩
  exact NodeRegistryEntry.ext rfl haddr (min_assoc _ _ _) (max_assoc _ _ _)
    (mergedStatus_assoc a b c)

lemma merged_self : a.merged a = a :=
  NodeRegistryEntry.ext rfl (by simp [merged, latestNonEmptyAddr]) (min_self _) (max_self _)
    (by simpa [merged, mergedStatus] using fun h => h.symm)

/-! ## Which of the two a merge takes -/

section

variable {a b : NodeRegistryEntry}

lemma mergedStatus_eq_decommissioned_iff :
    a.mergedStatus b = .decommissioned ↔
      a.status = .decommissioned ∨ b.status = .decommissioned := by
  unfold mergedStatus
  grind

lemma mergedStatus_of_lt (h : a.mergedStatus b ≠ .decommissioned)
    (hlt : a.lastSeenAtUnixMs < b.lastSeenAtUnixMs) : a.mergedStatus b = b.status := by
  rw [ne_eq, mergedStatus_eq_decommissioned_iff] at h
  rw [mergedStatus, if_neg h, if_pos hlt]

lemma mergedStatus_of_le (h : a.mergedStatus b ≠ .decommissioned)
    (hle : b.lastSeenAtUnixMs ≤ a.lastSeenAtUnixMs) : a.mergedStatus b = a.status := by
  rw [ne_eq, mergedStatus_eq_decommissioned_iff] at h
  rw [mergedStatus, if_neg h, if_neg hle.not_gt]

lemma latestNonEmptyAddr_eq_empty_iff :
    latestNonEmptyAddr a b = "" ↔ a.addr = "" ∧ b.addr = "" := by
  unfold latestNonEmptyAddr
  grind

lemma latestNonEmptyAddr_cases :
    latestNonEmptyAddr a b = a.addr ∨ latestNonEmptyAddr a b = b.addr := by
  unfold latestNonEmptyAddr
  grind

lemma latestNonEmptyAddr_of_le (hb : b.addr ≠ "")
    (hle : a.lastSeenAtUnixMs ≤ b.lastSeenAtUnixMs) : latestNonEmptyAddr a b = b.addr := by
  unfold latestNonEmptyAddr
  grind

lemma latestNonEmptyAddr_of_lt (ha : a.addr ≠ "")
    (hlt : b.lastSeenAtUnixMs < a.lastSeenAtUnixMs) : latestNonEmptyAddr a b = a.addr := by
  unfold latestNonEmptyAddr
  grind

lemma latestNonEmptyAddr_of_empty (hb : b.addr = "") : latestNonEmptyAddr a b = a.addr := by
  unfold latestNonEmptyAddr
  grind

end

/-! ## A registry that has merged a set of entries -/

/-- The entries of `S` that are as new as any. -/
def Latest (S : Set NodeRegistryEntry) : Set NodeRegistryEntry :=
  {x | x ∈ S ∧ ∀ y ∈ S, y.lastSeenAtUnixMs ≤ x.lastSeenAtUnixMs}

/-- The entries of `S` that name an address name the same one. -/
def OneAddr (S : Set NodeRegistryEntry) : Prop :=
  ∀ x ∈ S, ∀ y ∈ S, x.addr ≠ "" → y.addr ≠ "" → x.addr = y.addr

/-- The newest entries settle the status and the address.  Only when none of them names an address
do the older entries matter, and these have to agree among themselves. -/
structure Settled (S : Set NodeRegistryEntry) : Prop where
  status : (∃ x ∈ S, x.status = .decommissioned) ∨
    ∀ x ∈ Latest S, ∀ y ∈ Latest S, x.status = y.status
  addr : (∃ x ∈ Latest S, x.addr ≠ "") ∧ OneAddr (Latest S) ∨ OneAddr S

/-- What is known of an entry that the entries of `S` were merged into, in whatever order. -/
structure MergeOf (S : Set NodeRegistryEntry) (e : NodeRegistryEntry) : Prop where
  firstSeen : IsLeast (firstSeenAtUnixMs '' S) e.firstSeenAtUnixMs
  lastSeen : IsGreatest (lastSeenAtUnixMs '' S) e.lastSeenAtUnixMs
  tombstone : e.status = .decommissioned ↔ ∃ x ∈ S, x.status = .decommissioned
  status : e.status ≠ .decommissioned →
    ∃ x ∈ S, x.lastSeenAtUnixMs = e.lastSeenAtUnixMs ∧ x.status = e.status
  addr : ∃ x ∈ S, x.addr = e.addr
  noAddr : e.addr = "" → ∀ x ∈ S, x.addr = ""
  latestAddr : ∀ x ∈ S, x.lastSeenAtUnixMs = e.lastSeenAtUnixMs → x.addr ≠ "" →
    ∃ y ∈ S, y.lastSeenAtUnixMs = e.lastSeenAtUnixMs ∧ y.addr ≠ "" ∧ y.addr = e.addr

namespace MergeOf

variable {S : Set NodeRegistryEntry} {e e' : NodeRegistryEntry}

lemma single (e : NodeRegistryEntry) : MergeOf {e} e where
  firstSeen := by simp
  lastSeen := by simp
  tombstone := by simp
  status _ := ⟨e, rfl, rfl, rfl⟩
  addr := ⟨e, rfl, rfl⟩
  noAddr h x hx := by rwa [Set.mem_singleton_iff.1 hx]
  latestAddr x hx _ hne := by
    obtain rfl := Set.mem_singleton_iff.1 hx
    exact ⟨x, rfl, rfl, hne, rfl⟩

lemma le_lastSeen (h : MergeOf S e) {x : NodeRegistryEntry} (hx : x ∈ S) :
    x.lastSeenAtUnixMs ≤ e.lastSeenAtUnixMs :=
  h.lastSeen.2 ⟨x, hx, rfl⟩

lemma mem_latest_iff (h : MergeOf S e) {x : NodeRegistryEntry} :
    x ∈ Latest S ↔ x ∈ S ∧ x.lastSeenAtUnixMs = e.lastSeenAtUnixMs := by
  refine and_congr_right fun hx => ⟨fun hle => ?_, fun heq y hy => heq ▸ h.le_lastSeen hy⟩
  obtain ⟨m, hm, hlast⟩ := h.lastSeen.1
  exact le_antisymm (h.le_lastSeen hx) (hlast ▸ hle m hm)

/-- One more entry is merged in. -/
lemma merged (h : MergeOf S e) (x : NodeRegistryEntry) : MergeOf (insert x S) (e.merged x) where
  firstSeen := by
    rw [Set.image_insert_eq]
    show IsLeast _ (min e.firstSeenAtUnixMs x.firstSeenAtUnixMs)
    rw [min_comm]
    exact h.firstSeen.insert _
  lastSeen := by
    rw [Set.image_insert_eq]
    show IsGreatest _ (max e.lastSeenAtUnixMs x.lastSeenAtUnixMs)
    rw [max_comm]
    exact h.lastSeen.insert _
  tombstone := by
    show e.mergedStatus x = .decommissioned ↔ _
    rw [mergedStatus_eq_decommissioned_iff, h.tombstone, or_comm]
    simp only [Set.mem_insert_iff, exists_eq_or_imp]
  status hne := by
    rcases lt_or_ge e.lastSeenAtUnixMs x.lastSeenAtUnixMs with hlt | hle
    · exact ⟨x, Set.mem_insert _ _, (max_eq_right hlt.le).symm, (mergedStatus_of_lt hne hlt).symm⟩
    · have hstatus : (e.merged x).status = e.status := mergedStatus_of_le hne hle
      obtain ⟨y, hy, hlast, heq⟩ := h.status (hstatus ▸ hne)
      exact ⟨y, .inr hy, hlast.trans (max_eq_left hle).symm, heq.trans hstatus.symm⟩
  addr := by
    rcases latestNonEmptyAddr_cases (a := e) (b := x) with haddr | haddr
    · obtain ⟨y, hy, heq⟩ := h.addr
      exact ⟨y, .inr hy, heq.trans haddr.symm⟩
    · exact ⟨x, Set.mem_insert _ _, haddr.symm⟩
  noAddr hnone := by
    obtain ⟨he, hx⟩ := latestNonEmptyAddr_eq_empty_iff.1 hnone
    rintro y (rfl | hy)
    · exact hx
    · exact h.noAddr he y hy
  latestAddr y hy hlast hne := by
    have hmax : y.lastSeenAtUnixMs = max e.lastSeenAtUnixMs x.lastSeenAtUnixMs := hlast
    rcases lt_or_ge x.lastSeenAtUnixMs e.lastSeenAtUnixMs with hlt | hle
    · -- an older entry fills in an address only where there is none
      rw [max_eq_left hlt.le] at hmax
      have hyS : y ∈ S := hy.resolve_left fun heq => by
        rw [heq] at hmax
        omega
      obtain ⟨z, hz, hzlast, hzne, hzaddr⟩ := h.latestAddr y hyS hmax hne
      have haddr := latestNonEmptyAddr_of_lt (hzaddr ▸ hzne) hlt
      exact ⟨z, .inr hz, hzlast.trans (max_eq_left hlt.le).symm, hzne, hzaddr.trans haddr.symm⟩
    · by_cases hx : x.addr = ""
      · have haddr := latestNonEmptyAddr_of_empty (a := e) hx
        have hyS : y ∈ S := hy.resolve_left fun heq => hne (heq ▸ hx)
        have hyle := h.le_lastSeen hyS
        obtain ⟨z, hz, hzlast, hzne, hzaddr⟩ := h.latestAddr y hyS (by omega) hne
        refine ⟨z, .inr hz, ?_, hzne, hzaddr.trans haddr.symm⟩
        show z.lastSeenAtUnixMs = max e.lastSeenAtUnixMs x.lastSeenAtUnixMs
        omega
      · exact ⟨x, Set.mem_insert _ _, (max_eq_right hle).symm, hx,
          (latestNonEmptyAddr_of_le hx hle).symm⟩

lemma nonempty (h : MergeOf S e) : S.Nonempty := by
  obtain ⟨x, hx, -⟩ := h.addr
  exact ⟨x, hx⟩

/-- Where the entries settle it, the order in which they were merged does not matter. -/
lemma unique (h : MergeOf S e) (h' : MergeOf S e') (hnode : e.nodeId = e'.nodeId)
    (hset : Settled S) : e = e' := by
  have hlast := h.lastSeen.unique h'.lastSeen
  refine NodeRegistryEntry.ext hnode ?_ (h.firstSeen.unique h'.firstSeen) hlast ?_
  · obtain ⟨x, hx, hxaddr⟩ := h.addr
    obtain ⟨y, hy, hyaddr⟩ := h'.addr
    rcases hset.addr with ⟨⟨m, hm, hne⟩, hone⟩ | hone
    · obtain ⟨hmS, hmlast⟩ := h.mem_latest_iff.1 hm
      obtain ⟨z, hz, hzlast, hzne, hzaddr⟩ := h.latestAddr m hmS hmlast hne
      obtain ⟨w, hw, hwlast, hwne, hwaddr⟩ := h'.latestAddr m hmS (hmlast.trans hlast) hne
      rw [← hzaddr, ← hwaddr]
      exact hone z (h.mem_latest_iff.2 ⟨hz, hzlast⟩) w (h'.mem_latest_iff.2 ⟨hw, hwlast⟩) hzne hwne
    · by_cases he : e.addr = ""
      · rw [he, ← hyaddr, h.noAddr he y hy]
      · have he' : e'.addr ≠ "" := fun hempty => he (hxaddr ▸ h'.noAddr hempty x hx)
        rw [← hxaddr, ← hyaddr]
        exact hone x hx y hy (hxaddr ▸ he) (hyaddr ▸ he')
  · by_cases he : e.status = .decommissioned
    · rw [he, h'.tombstone.2 (h.tombstone.1 he)]
    · have he' : e'.status ≠ .decommissioned := fun hd => he (h.tombstone.2 (h'.tombstone.1 hd))
      obtain ⟨x, hx, hxlast, hxstatus⟩ := h.status he
      obtain ⟨y, hy, hylast, hystatus⟩ := h'.status he'
      have hnone : ¬ ∃ x ∈ S, x.status = .decommissioned := fun hd => he (h.tombstone.2 hd)
      rw [← hxstatus, ← hystatus]
      exact hset.status.resolve_left hnone x (h.mem_latest_iff.2 ⟨hx, hxlast⟩) y
        (h'.mem_latest_iff.2 ⟨hy, hylast⟩)

end MergeOf

end NodeRegistryEntry

/-! ## The registry of a node after its upserts -/

namespace Registry

open NodeRegistryEntry

/-- The entries of one node among those that were merged. -/
def entriesOf (entries : List NodeRegistryEntry) (id : String) : Set NodeRegistryEntry :=
  {x | x ∈ entries ∧ x.nodeId = id}

lemma entriesOf_concat_self (entries : List NodeRegistryEntry) (x : NodeRegistryEntry) :
    entriesOf (entries ++ [x]) x.nodeId = insert x (entriesOf entries x.nodeId) := by
  ext y
  simp only [entriesOf, List.mem_append, List.mem_singleton, Set.mem_ofPred_eq, Set.mem_insert_iff]
  constructor
  · rintro ⟨hy | rfl, hid⟩
    · exact .inr ⟨hy, hid⟩
    · exact .inl rfl
  · rintro (rfl | ⟨hy, hid⟩)
    · exact ⟨.inr rfl, rfl⟩
    · exact ⟨.inl hy, hid⟩

lemma entriesOf_concat_of_ne {entries : List NodeRegistryEntry} {x : NodeRegistryEntry}
    {id : String} (h : id ≠ x.nodeId) : entriesOf (entries ++ [x]) id = entriesOf entries id := by
  ext y
  simp only [entriesOf, List.mem_append, List.mem_singleton, Set.mem_ofPred_eq]
  refine and_congr_left fun hid => or_iff_left ?_
  rintro rfl
  exact h hid.symm

/-- The registry after upserts into the empty one. -/
def after (entries : List NodeRegistryEntry) : Registry := entries.foldl upserted fun _ => none

lemma after_concat (entries : List NodeRegistryEntry) (x : NodeRegistryEntry) :
    after (entries ++ [x]) = (after entries).upserted x :=
  List.foldl_concat ..

/-- The entry of a node is a merge of those of its entries that came in. -/
lemma after_spec (entries : List NodeRegistryEntry) (id : String) :
    (after entries id = none ∧ entriesOf entries id = ∅) ∨
      ∃ e, after entries id = some e ∧ e.nodeId = id ∧ MergeOf (entriesOf entries id) e := by
  induction entries using List.reverseRecOn with
  | nil => exact .inl ⟨rfl, by simp [entriesOf]⟩
  | append_singleton entries x ih =>
      rw [after_concat]
      by_cases hid : id = x.nodeId
      · subst hid
        rw [entriesOf_concat_self]
        rcases ih with ⟨hnone, hempty⟩ | ⟨e, he, hnode, hmerge⟩
        · rw [upserted_of_none hnone, hempty, insert_empty_eq, Map.insert_self]
          exact .inr ⟨x, rfl, rfl, .single x⟩
        · rw [upserted_of_some he, Map.insert_self]
          exact .inr ⟨_, rfl, hnode, hmerge.merged x⟩
      · rw [upserted_of_ne hid, entriesOf_concat_of_ne hid]
        exact ih

/-- The entries that come in later keep what each of them keeps. -/
lemma keeps_foldl_upserted {P : NodeRegistryEntry → Prop} {id : String}
    {rest : List NodeRegistryEntry}
    (hstep : ∀ x ∈ rest, x.nodeId = id → ∀ e, P e → P (e.merged x)) {registry : Registry}
    {e : NodeRegistryEntry} (he : registry id = some e) (hP : P e) :
    ∃ e', rest.foldl upserted registry id = some e' ∧ P e' := by
  induction rest generalizing registry e with
  | nil => exact ⟨e, he, hP⟩
  | cons x rest ih =>
      have hrest : ∀ y ∈ rest, y.nodeId = id → ∀ e, P e → P (e.merged y) :=
        fun y hy => hstep y (List.mem_cons_of_mem _ hy)
      by_cases hid : x.nodeId = id
      · have hnew : registry.upserted x id = some (e.merged x) := by
          subst hid
          rw [upserted_of_some he, Map.insert_self]
        exact ih hrest hnew (hstep x List.mem_cons_self hid e hP)
      · exact ih hrest ((upserted_of_ne (Ne.symm hid)).trans he) hP

/-! ## Any order -/

section

variable {entries : List NodeRegistryEntry} {id : String}

lemma after_eq_of_settled {l₁ l₂ : List NodeRegistryEntry} (h₁ : ∀ x, x ∈ l₁ ↔ x ∈ entries)
    (h₂ : ∀ x, x ∈ l₂ ↔ x ∈ entries) (hset : ∀ id, Settled (entriesOf entries id)) :
    after l₁ = after l₂ := by
  funext id
  have hof : ∀ {l}, (∀ x, x ∈ l ↔ x ∈ entries) → entriesOf l id = entriesOf entries id := by
    intro l hl
    ext x
    exact and_congr_left fun _ => hl x
  have hspec₁ := after_spec l₁ id
  have hspec₂ := after_spec l₂ id
  rw [hof h₁] at hspec₁
  rw [hof h₂] at hspec₂
  rcases hspec₁ with ⟨hnone₁, hempty⟩ | ⟨e₁, he₁, hnode₁, hmerge₁⟩
  · rcases hspec₂ with ⟨hnone₂, -⟩ | ⟨_, -, -, hmerge₂⟩
    · rw [hnone₁, hnone₂]
    · exact absurd hempty hmerge₂.nonempty.ne_empty
  · rcases hspec₂ with ⟨-, hempty⟩ | ⟨e₂, he₂, hnode₂, hmerge₂⟩
    · exact absurd hempty hmerge₁.nonempty.ne_empty
    · rw [he₁, he₂, hmerge₁.unique hmerge₂ (hnode₁.trans hnode₂.symm) (hset id)]

/-- The entry of the node once these have come in. -/
def Leaves (l : List NodeRegistryEntry) (id : String) (P : NodeRegistryEntry → Prop) : Prop :=
  ∃ e, after l id = some e ∧ P e

/-- Of the newest entries the first gives the status. -/
lemma leaves_status {x : NodeRegistryEntry} (hx : x ∈ Latest (entriesOf entries id))
    (hnone : ∀ y ∈ entriesOf entries id, y.status ≠ .decommissioned) :
    Leaves (x :: entries.erase x) id fun e => e.status = x.status := by
  have hfirst : (Registry.upserted (fun _ => none) x) id = some x := by
    rw [upserted_of_none rfl, ← hx.1.2, Map.insert_self]
  have hkeeps : ∀ y ∈ entries.erase x, y.nodeId = id → ∀ e : NodeRegistryEntry,
      e.lastSeenAtUnixMs = x.lastSeenAtUnixMs ∧ e.status = x.status →
      (e.merged y).lastSeenAtUnixMs = x.lastSeenAtUnixMs ∧ (e.merged y).status = x.status := by
    rintro y hy hid e ⟨hlast, hstatus⟩
    have hyof : y ∈ entriesOf entries id := ⟨List.mem_of_mem_erase hy, hid⟩
    have hle : y.lastSeenAtUnixMs ≤ e.lastSeenAtUnixMs := hlast ▸ hx.2 y hyof
    refine ⟨(max_eq_left hle).trans hlast, (mergedStatus_of_le ?_ hle).trans hstatus⟩
    rw [ne_eq, mergedStatus_eq_decommissioned_iff, hstatus]
    exact not_or.2 ⟨hnone x hx.1, hnone y hyof⟩
  obtain ⟨e, he, -, hstatus⟩ := keeps_foldl_upserted hkeeps hfirst ⟨rfl, rfl⟩
  exact ⟨e, he, hstatus⟩

/-- Of the newest entries the last that names an address gives it. -/
lemma leaves_addr_last {x : NodeRegistryEntry} (hx : x ∈ Latest (entriesOf entries id))
    (hne : x.addr ≠ "") : Leaves (entries.erase x ++ [x]) id fun e => e.addr = x.addr := by
  unfold Leaves
  rw [after_concat]
  obtain rfl := hx.1.2
  rcases after_spec (entries.erase x) x.nodeId with ⟨hnone, -⟩ | ⟨e, he, -, hmerge⟩
  · exact ⟨x, by rw [upserted_of_none hnone, Map.insert_self], rfl⟩
  · refine ⟨e.merged x, by rw [upserted_of_some he, Map.insert_self], ?_⟩
    obtain ⟨y, ⟨hy, hid⟩, hlast⟩ := hmerge.lastSeen.1
    have hle := hx.2 y ⟨List.mem_of_mem_erase hy, hid⟩
    exact latestNonEmptyAddr_of_le hne (hlast ▸ hle)

/-- Where none of the newest names an address, the first that came in before one of them gives
it. -/
lemma leaves_addr_first {x m : NodeRegistryEntry} (hx : x ∈ entriesOf entries id)
    (hne : x.addr ≠ "") (hm : m ∈ Latest (entriesOf entries id))
    (hnone : ∀ y ∈ Latest (entriesOf entries id), y.addr = "") :
    Leaves (x :: m :: (entries.erase x).erase m) id fun e => e.addr = x.addr := by
  have hfirst : (Registry.upserted (fun _ => none) x) id = some x := by
    rw [upserted_of_none rfl, ← hx.2, Map.insert_self]
  have hsecond : ((Registry.upserted (fun _ => none) x).upserted m) id = some (x.merged m) := by
    obtain rfl := hm.1.2
    rw [upserted_of_some hfirst, Map.insert_self]
  have hkeeps : ∀ y ∈ (entries.erase x).erase m, y.nodeId = id → ∀ e : NodeRegistryEntry,
      e.lastSeenAtUnixMs = m.lastSeenAtUnixMs ∧ e.addr = x.addr →
      (e.merged y).lastSeenAtUnixMs = m.lastSeenAtUnixMs ∧ (e.merged y).addr = x.addr := by
    rintro y hy hid e ⟨hlast, haddr⟩
    have hyof : y ∈ entriesOf entries id :=
      ⟨List.mem_of_mem_erase (List.mem_of_mem_erase hy), hid⟩
    have hle : y.lastSeenAtUnixMs ≤ e.lastSeenAtUnixMs := hlast ▸ hm.2 y hyof
    refine ⟨(max_eq_left hle).trans hlast, ?_⟩
    rcases hle.lt_or_eq with hlt | heq
    · exact (latestNonEmptyAddr_of_lt (haddr ▸ hne) hlt).trans haddr
    · have hlatest : y ∈ Latest (entriesOf entries id) :=
        ⟨hyof, fun z hz => (hm.2 z hz).trans (heq.trans hlast).ge⟩
      exact (latestNonEmptyAddr_of_empty (hnone y hlatest)).trans haddr
  have hmaddr := latestNonEmptyAddr_of_empty (a := x) (hnone m hm)
  obtain ⟨e, he, -, haddr⟩ :=
    keeps_foldl_upserted hkeeps hsecond ⟨max_eq_right (hm.2 x hx), hmaddr⟩
  exact ⟨e, he, haddr⟩

/-- If all orders leave one registry, what one order leaves another leaves too. -/
lemma Leaves.agree (hsame : ∀ l, l.Perm entries → after l = after entries) {β : Type}
    {f : NodeRegistryEntry → β} {l₁ l₂ : List NodeRegistryEntry} {b₁ b₂ : β}
    (hl₁ : l₁.Perm entries) (hl₂ : l₂.Perm entries)
    (h₁ : Leaves l₁ id fun e => f e = b₁) (h₂ : Leaves l₂ id fun e => f e = b₂) : b₁ = b₂ := by
  obtain ⟨e₁, he₁, rfl⟩ := h₁
  obtain ⟨e₂, he₂, rfl⟩ := h₂
  rw [hsame l₁ hl₁] at he₁
  rw [hsame l₂ hl₂, he₁] at he₂
  rw [Option.some.inj he₂]

lemma settled_of_orders (hsame : ∀ l, l.Perm entries → after l = after entries) :
    Settled (entriesOf entries id) := by
  have hfront : ∀ x ∈ entriesOf entries id, (x :: entries.erase x).Perm entries :=
    fun x hx => (List.perm_cons_erase hx.1).symm
  have hback : ∀ x ∈ entriesOf entries id, (entries.erase x ++ [x]).Perm entries :=
    fun x hx => List.perm_append_comm.trans (hfront x hx)
  constructor
  · by_contra! hbad
    obtain ⟨hnone, x, hx, y, hy, hne⟩ := hbad
    exact hne (Leaves.agree hsame (hfront x hx.1) (hfront y hy.1) (leaves_status hx hnone)
      (leaves_status hy hnone))
  · by_contra! hbad
    obtain ⟨hlatest, hall⟩ := hbad
    by_cases hnamed : ∃ m ∈ Latest (entriesOf entries id), m.addr ≠ ""
    · have hone := hlatest hnamed
      simp only [OneAddr, not_forall] at hone
      obtain ⟨x, hx, y, hy, hxne, hyne, hne⟩ := hone
      exact hne (Leaves.agree hsame (hback x hx.1) (hback y hy.1) (leaves_addr_last hx hxne)
        (leaves_addr_last hy hyne))
    · simp only [OneAddr, not_forall] at hall
      obtain ⟨x, hx, y, hy, hxne, hyne, hne⟩ := hall
      have hnone : ∀ m ∈ Latest (entriesOf entries id), m.addr = "" :=
        fun m hm => not_not.1 fun h => hnamed ⟨m, hm, h⟩
      obtain ⟨m, hm⟩ : (Latest (entriesOf entries id)).Nonempty := by
        rcases after_spec entries id with ⟨-, hempty⟩ | ⟨e, -, -, hmerge⟩
        · exact absurd (hempty ▸ hx) (Set.notMem_empty x)
        · obtain ⟨m, hm, hlast⟩ := hmerge.lastSeen.1
          exact ⟨m, hmerge.mem_latest_iff.2 ⟨hm, hlast⟩⟩
      have hperm : ∀ z ∈ entriesOf entries id, z.addr ≠ "" →
          (z :: m :: (entries.erase z).erase m).Perm entries := by
        intro z hz hzne
        have hmz : m ≠ z := by
          rintro rfl
          exact hzne (hnone m hm)
        have hmem : m ∈ entries.erase z := (List.mem_erase_of_ne hmz).2 hm.1.1
        exact ((List.perm_cons_erase hmem).symm.cons z).trans (hfront z hz)
      exact hne (Leaves.agree hsame (hperm x hx hxne) (hperm y hy hyne)
        (leaves_addr_first hx hxne hm hnone) (leaves_addr_first hy hyne hm hnone))

end

end Registry

/-- **When the registry merge is a join.**  It is idempotent and keeps the tombstone.  It commutes
on two entries and associates on three exactly where no tie and no newer entry without an address
stands between two answers; and nodes that have merged the same entries in whatever order, and
however often, hold equal registries exactly when the newest entries of each node settle it. -/
theorem merge_join_iff (a b c : NodeRegistryEntry) (hb : a.nodeId = b.nodeId)
    (hc : b.nodeId = c.nodeId) (entries : List NodeRegistryEntry) :
    (a.merge b = b.merge a ↔ a.Commutes b) ∧
    ((a.merge b).bind (·.merge c) = (b.merge c).bind a.merge ↔ a.Associates b c) ∧
    a.merge a = some a ∧
    (a.status = .decommissioned →
      (a.merge b).map (·.status) = some .decommissioned ∧
      (b.merge a).map (·.status) = some .decommissioned) ∧
    [∀ id, NodeRegistryEntry.Settled (Registry.entriesOf entries id),
      ∀ l₁ l₂, (∀ x, x ∈ l₁ ↔ x ∈ entries) → (∀ x, x ∈ l₂ ↔ x ∈ entries) →
        Registry.registryOf l₁ = Registry.registryOf l₂,
      ∀ l, l.Perm entries → Registry.registryOf l = Registry.registryOf entries].TFAE := by
  have hab := NodeRegistryEntry.merge_of_nodeId_eq hb
  have hba := NodeRegistryEntry.merge_of_nodeId_eq hb.symm
  have hbc := NodeRegistryEntry.merge_of_nodeId_eq hc
  refine ⟨?_, ?_, ?_, fun hd => ?_, ?_⟩
  · rw [hab, hba, Option.some_inj]
    exact a.merged_comm_iff b hb
  · have hleft : (a.merged b).merge c = some ((a.merged b).merged c) :=
      NodeRegistryEntry.merge_of_nodeId_eq (hb.trans hc)
    have hright : a.merge (b.merged c) = some (a.merged (b.merged c)) :=
      NodeRegistryEntry.merge_of_nodeId_eq hb
    rw [hab, hbc, Option.bind_some, Option.bind_some, hleft, hright, Option.some_inj]
    exact a.merged_assoc_iff b c
  · rw [NodeRegistryEntry.merge_of_nodeId_eq rfl, a.merged_self]
  · rw [hab, hba, Option.map_some, Option.map_some, Option.some_inj, Option.some_inj]
    exact ⟨NodeRegistryEntry.mergedStatus_eq_decommissioned_iff.2 (.inl hd),
      NodeRegistryEntry.mergedStatus_eq_decommissioned_iff.2 (.inr hd)⟩
  · simp only [Registry.registryOf_eq, Option.some_inj]
    tfae_have 1 → 2 := fun hset l₁ l₂ h₁ h₂ => Registry.after_eq_of_settled h₁ h₂ hset
    tfae_have 2 → 3 := fun hsame l hl => hsame l entries (fun x => hl.mem_iff) fun _ => .rfl
    tfae_have 3 → 1 := fun hsame id => Registry.settled_of_orders hsame
    tfae_finish

/-- Node `n1`, active since time 1. -/
private def sighting (addr : String) (lastSeen : ℕ) : NodeRegistryEntry :=
  ⟨"n1", addr, 1, lastSeen, .active⟩

/-- Two sightings at one address. -/
theorem merge_join_iff_sightings :
    (sighting "x:1" 5).merge (sighting "x:1" 7) = (sighting "x:1" 7).merge (sighting "x:1" 5) ∧
    Registry.registryOf [sighting "x:1" 7, sighting "x:1" 5, sighting "x:1" 7] =
      Registry.registryOf [sighting "x:1" 5, sighting "x:1" 7] := by
  have h := merge_join_iff (sighting "x:1" 5) (sighting "x:1" 7) (sighting "" 6) rfl rfl
    [sighting "x:1" 5, sighting "x:1" 7]
  refine ⟨h.1.2 (fun htie => absurd htie (by decide)), ?_⟩
  have hall : ∀ x ∈ [sighting "x:1" 5, sighting "x:1" 7], x.addr = "x:1" ∧ x.status = .active := by
    decide
  have hset : ∀ id, NodeRegistryEntry.Settled
      (Registry.entriesOf [sighting "x:1" 5, sighting "x:1" 7] id) := fun id =>
    { status := .inr fun x hx y hy => by rw [(hall x hx.1.1).2, (hall y hy.1.1).2]
      addr := .inr fun x hx y hy _ _ => by rw [(hall x hx.1).1, (hall y hy.1).1] }
  have horders := (h.2.2.2.2.out 0 1).1 hset
  exact horders _ _ (fun x => by simp; tauto) fun _ => Iff.rfl

/-- Two addresses of one time, and an address that a newer entry without one passes on: no law
holds, and the registries depend on the order. -/
theorem merge_not_join :
    ¬ ((∀ a b : NodeRegistryEntry, a.nodeId = b.nodeId → a.merge b = b.merge a) ∨
      (∀ a b c : NodeRegistryEntry, a.nodeId = b.nodeId → b.nodeId = c.nodeId →
        (a.merge b).bind (·.merge c) = (b.merge c).bind a.merge) ∨
      ∀ l₁ l₂ : List NodeRegistryEntry, (∀ x, x ∈ l₁ ↔ x ∈ l₂) →
        Registry.registryOf l₁ = Registry.registryOf l₂) := by
  rintro (hcomm | hassoc | horder)
  · exact absurd (hcomm (sighting "x:1" 5) (sighting "y:1" 5) rfl) (by decide)
  · exact absurd (hassoc (sighting "x:1" 5) (sighting "" 10) (sighting "y:1" 7) rfl rfl)
      (by decide)
  · have h := horder [sighting "x:1" 5, sighting "" 10, sighting "y:1" 7]
      [sighting "y:1" 7, sighting "" 10, sighting "x:1" 5] (by simp; tauto)
    have hn1 := congrArg (fun r => r.bind fun reg => reg "n1") h
    exact absurd hn1 (by decide)

end Shardd
