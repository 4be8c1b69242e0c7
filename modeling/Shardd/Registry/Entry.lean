import Mathlib.Order.Bounds.Basic
import Shardd.Lib.Map

/-!
# The node registry (`libs/types`, `libs/storage`)

One entry for each node that was ever seen, the merge of two entries of one node, and the registry
table of the in-memory backend, which merges what comes in into what it has.
-/

namespace Shardd

inductive NodeStatus
  | active
  | suspect
  | unreachable
  | decommissioned
  deriving DecidableEq, Repr

def NodeStatus.display : NodeStatus → String
  | .active => "active"
  | .suspect => "suspect"
  | .unreachable => "unreachable"
  | .decommissioned => "decommissioned"

@[ext]
structure NodeRegistryEntry where
  nodeId : String
  addr : String
  firstSeenAtUnixMs : ℕ
  lastSeenAtUnixMs : ℕ
  status : NodeStatus
  deriving DecidableEq, Repr

def latestNonEmptyAddr (current incoming : NodeRegistryEntry) : String :=
  if current.lastSeenAtUnixMs < incoming.lastSeenAtUnixMs then
    if incoming.addr = "" then current.addr else incoming.addr
  else if incoming.lastSeenAtUnixMs < current.lastSeenAtUnixMs then
    if current.addr = "" then incoming.addr else current.addr
  else if incoming.addr ≠ "" then incoming.addr
  else current.addr

namespace NodeRegistryEntry

variable (self other : NodeRegistryEntry)

/-- The status of the merged entry.  At the same time it is that of `self`. -/
def mergedStatus : NodeStatus :=
  let latest := if self.lastSeenAtUnixMs < other.lastSeenAtUnixMs then other else self
  if self.status = .decommissioned ∨ other.status = .decommissioned then .decommissioned
  else latest.status

/-- What `merge` returns once its assertion has passed. -/
def merged : NodeRegistryEntry where
  nodeId := self.nodeId
  addr := latestNonEmptyAddr self other
  firstSeenAtUnixMs := min self.firstSeenAtUnixMs other.firstSeenAtUnixMs
  lastSeenAtUnixMs := max self.lastSeenAtUnixMs other.lastSeenAtUnixMs
  status := self.mergedStatus other

/-- `none` is the failed assertion that the two entries are of one node. -/
def merge : Option NodeRegistryEntry :=
  if self.nodeId = other.nodeId then some (self.merged other) else none

theorem merge_of_nodeId_eq {self other : NodeRegistryEntry} (h : self.nodeId = other.nodeId) :
    self.merge other = some (self.merged other) :=
  if_pos h

end NodeRegistryEntry

/-! ## The table of the in-memory backend -/

/-- The registry by `node_id`. -/
abbrev Registry := Map String NodeRegistryEntry

namespace Registry

/-- `upsert_registry_entry`; `none` when the merge panics. -/
def upsertRegistryEntry (registry : Registry) (entry : NodeRegistryEntry) : Option Registry := do
  let merged ← match registry entry.nodeId with
    | some e => e.merge entry
    | none => some entry
  return registry.insert entry.nodeId merged

/-- Every entry is filed under its own `node_id`. -/
def Keyed (registry : Registry) : Prop := ∀ id e, registry id = some e → e.nodeId = id

/-- The registry after an upsert that does not panic. -/
def upserted (registry : Registry) (entry : NodeRegistryEntry) : Registry :=
  registry.insert entry.nodeId (((registry entry.nodeId).map (·.merged entry)).getD entry)

theorem upserted_of_some {registry : Registry} {e entry : NodeRegistryEntry}
    (h : registry entry.nodeId = some e) :
    registry.upserted entry = registry.insert entry.nodeId (e.merged entry) := by
  rw [upserted, h, Option.map_some, Option.getD_some]

theorem upserted_of_none {registry : Registry} {entry : NodeRegistryEntry}
    (h : registry entry.nodeId = none) :
    registry.upserted entry = registry.insert entry.nodeId entry := by
  rw [upserted, h, Option.map_none, Option.getD_none]

theorem upserted_of_ne {registry : Registry} {entry : NodeRegistryEntry} {id : String}
    (h : id ≠ entry.nodeId) : registry.upserted entry id = registry id :=
  registry.insert_of_ne _ _ h

theorem Keyed.upserted {registry : Registry} (h : registry.Keyed) (entry : NodeRegistryEntry) :
    (registry.upserted entry).Keyed := by
  intro id e he
  rcases Map.of_insert he with he | ⟨rfl, rfl⟩
  · exact h id e he
  · cases hold : registry entry.nodeId with
    | none => rfl
    | some old => exact h _ old hold

/-- No upsert into a registry whose entries are filed under their own ids panics. -/
theorem Keyed.upsertRegistryEntry {registry : Registry} (h : registry.Keyed)
    (entry : NodeRegistryEntry) :
    registry.upsertRegistryEntry entry = some (registry.upserted entry) := by
  unfold Registry.upsertRegistryEntry
  cases hold : registry entry.nodeId with
  | none => rw [upserted_of_none hold]; rfl
  | some old =>
      have hmerge := NodeRegistryEntry.merge_of_nodeId_eq (h _ _ hold)
      rw [upserted_of_some hold]
      simp only [hmerge]
      rfl

/-- The registry of a node that has merged these entries, in this order. -/
def registryOf (entries : List NodeRegistryEntry) : Option Registry :=
  entries.foldlM upsertRegistryEntry fun _ => none

theorem Keyed.foldl_upserted {registry : Registry} (h : registry.Keyed)
    (entries : List NodeRegistryEntry) :
    (entries.foldl Registry.upserted registry).Keyed ∧
      entries.foldlM Registry.upsertRegistryEntry registry =
        some (entries.foldl Registry.upserted registry) := by
  induction entries generalizing registry with
  | nil => exact ⟨h, rfl⟩
  | cons entry rest ih =>
      rw [List.foldlM_cons, h.upsertRegistryEntry]
      exact ih (h.upserted entry)

theorem keyed_empty : Keyed fun _ => none := fun _ _ h => nomatch h

theorem registryOf_eq (entries : List NodeRegistryEntry) :
    registryOf entries = some (entries.foldl upserted fun _ => none) :=
  (keyed_empty.foldl_upserted entries).2

end Registry

end Shardd
