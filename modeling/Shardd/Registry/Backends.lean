import Shardd.Lib.Postgres
import Shardd.Registry.Merge

/-!
# The registry upsert of the Postgres backend (`libs/storage/src/postgres.rs`)

The table keeps times as `BIGINT` and the status as text.  The statement merges what comes in into
the row of the node with an expression for each column; the in-memory backend calls
`NodeRegistryEntry::merge`.  The two agree but for two addresses of one time, of which the
statement keeps the stored one and `merge` takes the incoming one.
-/

namespace Shardd

open Postgres

structure RegistryRow where
  nodeId : Text
  addr : Text
  firstSeenAtUnixMs : Int64
  lastSeenAtUnixMs : Int64
  status : String

namespace RegistryRow

/-- The values bound to the statement. -/
def bind (entry : NodeRegistryEntry) : Except StatementError RegistryRow := do
  let nodeId ← bindText entry.nodeId
  let addr ← bindText entry.addr
  return { nodeId, addr
           firstSeenAtUnixMs := bindBigint entry.firstSeenAtUnixMs
           lastSeenAtUnixMs := bindBigint entry.lastSeenAtUnixMs
           status := entry.status.display }

/-- The columns after `DO UPDATE SET`; `excluded` is the row proposed for insertion. -/
def updated (row excluded : RegistryRow) : RegistryRow where
  nodeId := row.nodeId
  firstSeenAtUnixMs :=
    if row.firstSeenAtUnixMs ≤ excluded.firstSeenAtUnixMs then row.firstSeenAtUnixMs
    else excluded.firstSeenAtUnixMs
  lastSeenAtUnixMs :=
    if excluded.lastSeenAtUnixMs ≤ row.lastSeenAtUnixMs then row.lastSeenAtUnixMs
    else excluded.lastSeenAtUnixMs
  addr :=
    if row.lastSeenAtUnixMs < excluded.lastSeenAtUnixMs then
      if excluded.addr.1 ≠ "" then excluded.addr else row.addr
    else if row.addr.1 = "" then excluded.addr
    else row.addr
  status :=
    if row.status = "decommissioned" ∨ excluded.status = "decommissioned" then "decommissioned"
    else if row.lastSeenAtUnixMs < excluded.lastSeenAtUnixMs then excluded.status
    else row.status

/-- `load_registry` for one row. -/
def entry (row : RegistryRow) : NodeRegistryEntry where
  nodeId := row.nodeId
  addr := row.addr
  firstSeenAtUnixMs := readBigint row.firstSeenAtUnixMs
  lastSeenAtUnixMs := readBigint row.lastSeenAtUnixMs
  status :=
    if row.status = "suspect" then .suspect
    else if row.status = "unreachable" then .unreachable
    else if row.status = "decommissioned" then .decommissioned
    else .active

/-- The statement `upsert_registry_entry` issues, on the table by `node_id`. -/
def upsertRegistryEntry (table : Map String RegistryRow) (incoming : NodeRegistryEntry) :
    Except StatementError (Map String RegistryRow) := do
  let excluded ← bind incoming
  match table excluded.nodeId.1 with
  | some row => return table.insert excluded.nodeId.1 (row.updated excluded)
  | none => return table.insert excluded.nodeId.1 excluded

/-! ## What the columns hold -/

lemma bind_of_nulFree {e : NodeRegistryEntry} (hid : NulFree e.nodeId) (haddr : NulFree e.addr) :
    bind e = .ok
      { nodeId := ⟨e.nodeId, hid⟩, addr := ⟨e.addr, haddr⟩
        firstSeenAtUnixMs := bindBigint e.firstSeenAtUnixMs
        lastSeenAtUnixMs := bindBigint e.lastSeenAtUnixMs
        status := e.status.display } := by
  rw [bind, bindText_of_nulFree hid, bindText_of_nulFree haddr]
  rfl

/-- What is stored of an entry. -/
lemma of_bind {e : NodeRegistryEntry} {row : RegistryRow} (h : bind e = .ok row) :
    ∃ (hid : NulFree e.nodeId) (haddr : NulFree e.addr), row =
      { nodeId := ⟨e.nodeId, hid⟩, addr := ⟨e.addr, haddr⟩
        firstSeenAtUnixMs := bindBigint e.firstSeenAtUnixMs
        lastSeenAtUnixMs := bindBigint e.lastSeenAtUnixMs
        status := e.status.display } := by
  by_cases hid : NulFree e.nodeId
  · by_cases haddr : NulFree e.addr
    · exact ⟨hid, haddr, Except.ok.inj (h.symm.trans (bind_of_nulFree hid haddr))⟩
    · rw [bind, bindText_of_nulFree hid, bindText_of_not_nulFree haddr] at h
      cases h
  · rw [bind, bindText_of_not_nulFree hid] at h
    cases h

lemma exists_bind {e : NodeRegistryEntry} (hid : NulFree e.nodeId) (haddr : NulFree e.addr) :
    ∃ row, bind e = .ok row ∧ row.nodeId.1 = e.nodeId :=
  ⟨_, bind_of_nulFree hid haddr, rfl⟩

lemma bind_of_not_nulFree {e : NodeRegistryEntry} (haddr : ¬ NulFree e.addr) :
    ∃ err, bind e = .error err := by
  cases h : bind e with
  | error err => exact ⟨err, rfl⟩
  | ok row =>
      obtain ⟨-, hfree, -⟩ := of_bind h
      exact absurd hfree haddr

lemma status_of_display {row : RegistryRow} {s : NodeStatus} (h : row.status = s.display) :
    row.entry.status = s := by
  show (if row.status = _ then _ else _) = s
  rw [h]
  cases s <;> decide

lemma display_eq_decommissioned_iff {s : NodeStatus} :
    s.display = "decommissioned" ↔ s = .decommissioned := by
  cases s <;> decide

/-- The statement's merge is `merge` but for the address, where the two entries change sides. -/
lemma entry_updated {e x : NodeRegistryEntry} {row excluded : RegistryRow}
    (hrow : bind e = .ok row) (hexcluded : bind x = .ok excluded)
    (he : e.firstSeenAtUnixMs < 2 ^ 63 ∧ e.lastSeenAtUnixMs < 2 ^ 63)
    (hx : x.firstSeenAtUnixMs < 2 ^ 63 ∧ x.lastSeenAtUnixMs < 2 ^ 63) :
    (row.updated excluded).entry = { e.merged x with addr := latestNonEmptyAddr x e } := by
  obtain ⟨hid, haddr, rfl⟩ := of_bind hrow
  obtain ⟨hid', haddr', rfl⟩ := of_bind hexcluded
  have hread : ∀ {n : ℕ}, n < 2 ^ 63 → readBigint (bindBigint n) = n :=
    fun hn => readBigint_bindBigint (by omega)
  apply NodeRegistryEntry.ext
  · rfl
  · show (updated _ _).addr.1 = latestNonEmptyAddr x e
    simp only [updated, latestNonEmptyAddr, bindBigint_lt_iff he.2 hx.2]
    rcases lt_trichotomy e.lastSeenAtUnixMs x.lastSeenAtUnixMs with h | h | h
    · by_cases hempty : x.addr = "" <;> simp [h, h.not_gt, hempty]
    · by_cases hempty : e.addr = "" <;> simp [h, hempty]
    · by_cases hempty : e.addr = "" <;> simp [h, h.not_gt, hempty]
  · show readBigint (if _ ≤ _ then _ else _) = min e.firstSeenAtUnixMs x.firstSeenAtUnixMs
    simp only [bindBigint_le_iff he.1 hx.1]
    split
    · rename_i h
      rw [hread he.1, min_eq_left h]
    · rename_i h
      rw [hread hx.1, min_eq_right (le_of_not_ge h)]
  · show readBigint (if _ ≤ _ then _ else _) = max e.lastSeenAtUnixMs x.lastSeenAtUnixMs
    simp only [bindBigint_le_iff hx.2 he.2]
    split
    · rename_i h
      rw [hread he.2, max_eq_left h]
    · rename_i h
      rw [hread hx.2, max_eq_right (le_of_not_ge h)]
  · apply status_of_display
    simp only [updated, NodeRegistryEntry.merged, NodeRegistryEntry.mergedStatus,
      display_eq_decommissioned_iff, bindBigint_lt_iff he.2 hx.2]
    split
    · rfl
    · split <;> rfl

end RegistryRow

/-- **The two registry backends.**  On a stored entry and an incoming one of the same node, with
times below `2 ^ 63`, the in-memory upsert leaves `NodeRegistryEntry::merge` of the two.  The row
that the Postgres statement leaves is the same exactly when the server takes the incoming address
and the two entries are not of one time with two addresses. -/
theorem registry_upserts_agree_iff {table : Map String RegistryRow} {registry : Registry}
    {e x : NodeRegistryEntry} {row : RegistryRow} (hbound : RegistryRow.bind e = .ok row)
    (hrow : table e.nodeId = some row) (hentry : registry e.nodeId = some e)
    (hid : x.nodeId = e.nodeId)
    (he : e.firstSeenAtUnixMs < 2 ^ 63 ∧ e.lastSeenAtUnixMs < 2 ^ 63)
    (hx : x.firstSeenAtUnixMs < 2 ^ 63 ∧ x.lastSeenAtUnixMs < 2 ^ 63) :
    (registry.upsertRegistryEntry x).bind (· e.nodeId) = e.merge x ∧
    (((RegistryRow.upsertRegistryEntry table x).toOption.bind (· e.nodeId)).map
        RegistryRow.entry = (registry.upsertRegistryEntry x).bind (· e.nodeId) ↔
      NulFree x.addr ∧ (e.lastSeenAtUnixMs = x.lastSeenAtUnixMs →
        e.addr = "" ∨ x.addr = "" ∨ e.addr = x.addr)) := by
  have hmerge := NodeRegistryEntry.merge_of_nodeId_eq hid.symm
  have hmemory : (registry.upsertRegistryEntry x).bind (· e.nodeId) = e.merge x := by
    simp [Registry.upsertRegistryEntry, hid, hentry, hmerge]
  refine ⟨hmemory, ?_⟩
  rw [hmemory, hmerge]
  by_cases hfree : NulFree x.addr
  · obtain ⟨hidFree, -, -⟩ := RegistryRow.of_bind hbound
    obtain ⟨excluded, hexcluded, hexid⟩ := RegistryRow.exists_bind (hid ▸ hidFree) hfree
    have hupsert : (RegistryRow.upsertRegistryEntry table x).toOption.bind (· e.nodeId) =
        some (row.updated excluded) := by
      rw [RegistryRow.upsertRegistryEntry, hexcluded]
      simp [hexid, hid, hrow, Except.toOption, bind, Except.bind, pure, Except.pure]
    rw [hupsert, Option.map_some, Option.some_inj,
      RegistryRow.entry_updated hbound hexcluded he hx, ← e.latestNonEmptyAddr_comm_iff x]
    refine ⟨fun h => ⟨hfree, (congrArg NodeRegistryEntry.addr h).symm⟩, fun h => ?_⟩
    exact NodeRegistryEntry.ext rfl h.2.symm rfl rfl rfl
  · obtain ⟨err, herr⟩ := RegistryRow.bind_of_not_nulFree hfree
    have hrefused : (RegistryRow.upsertRegistryEntry table x).toOption = none := by
      rw [RegistryRow.upsertRegistryEntry, herr]
      rfl
    rw [hrefused]
    refine iff_of_false (fun h => ?_) fun h => hfree h.1
    cases h

/-- Node `n2`, active since time 1. -/
private def contact (addr : String) (lastSeen : ℕ) : NodeRegistryEntry :=
  ⟨"n2", addr, 1, lastSeen, .active⟩

private def filed (addr : String) (lastSeen : ℕ) (h : NulFree addr) : RegistryRow :=
  ⟨⟨"n2", by decide⟩, ⟨addr, h⟩, bindBigint 1, bindBigint lastSeen, "active"⟩

/-- A newer entry with another address. -/
theorem registry_upserts_agree_newer :
    ((RegistryRow.upsertRegistryEntry
        (Map.insert (fun _ => none) "n2" (filed "x:1" 5 (by decide)))
        (contact "y:1" 7)).toOption.bind (· "n2")).map RegistryRow.entry =
      (Registry.upsertRegistryEntry (Map.insert (fun _ => none) "n2" (contact "x:1" 5))
        (contact "y:1" 7)).bind (· "n2") := by
  have hbound : RegistryRow.bind (contact "x:1" 5) = .ok (filed "x:1" 5 (by decide)) := rfl
  have h := @registry_upserts_agree_iff
    (Map.insert (fun _ => none) "n2" (filed "x:1" 5 (by decide)))
    (Map.insert (fun _ => none) "n2" (contact "x:1" 5)) _ (contact "y:1" 7) _ hbound
    (Map.insert_self ..) (Map.insert_self ..) rfl (by decide) (by decide)
  exact h.2.2 ⟨by decide, fun htie => absurd htie (by decide)⟩

/-- Two addresses of one time: the statement keeps the stored one. -/
theorem registry_upserts_disagree :
    ((RegistryRow.upsertRegistryEntry
        (Map.insert (fun _ => none) "n2" (filed "x:1" 5 (by decide)))
        (contact "y:1" 5)).toOption.bind (· "n2")).map RegistryRow.entry ≠
      (Registry.upsertRegistryEntry (Map.insert (fun _ => none) "n2" (contact "x:1" 5))
        (contact "y:1" 5)).bind (· "n2") := by
  decide

end Shardd
