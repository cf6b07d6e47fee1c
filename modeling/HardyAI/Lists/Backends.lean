import HardyAI.Lists.MemoryStore
import HardyAI.Lists.Replays
import Mathlib.Logic.Equiv.Defs

/-! The two storages of lists side by side: the same calls up to a renaming of the identifiers
that each of them generates, and what it means that they answer alike. -/

open Foundation Foundation.Json Foundation.Trace

namespace HardyAI.Lists

section Reads

/-- A list storage call. -/
inductive StorageCall
  | typed (c : TypedCall)
  | listRecords (ownerUserId : Str)
  | listItemEntries (ownerUserId listName : Str)

/-- An element of `list_item_entries`. -/
structure ItemSummary where
  itemId : Str
  itemName : Str
  checked : Bool
  position : Int
  deriving DecidableEq

inductive StorageReply
  | typed (reply : Except PyError Outcome)
  | records (rows : List ListRow)
  | entries (items : List ItemSummary)

def ItemEntry.summary (i : ItemEntry) : ItemSummary :=
  ⟨i.itemId, i.itemName, i.checked, i.position⟩

/-- `ORDER BY position ASC, added_at ASC`. -/
def ListItem.entryOrder (a b : ListItem) : Prop :=
  a.position < b.position ∨ a.position = b.position ∧ a.addedAt ≤ b.addedAt

instance : DecidableRel ListItem.entryOrder :=
  fun a b => by unfold ListItem.entryOrder; infer_instance

variable [PythonText]

def listRecords (db : ListDb) (ownerUserId : Str) : List ListRow :=
  (db.lists.rows.filter fun l => l.ownerUserId = normalized ownerUserId).insertionSort
    fun a b => a.listName ≤ b.listName

def listItemEntries (db : ListDb) (ownerUserId listName : Str) : List ItemSummary :=
  match db.named (normalized ownerUserId) (normalized listName) with
  | none => []
  | some l => ((db.itemsOf l.listId).insertionSort ListItem.entryOrder).map
      fun i => i.entry.summary

def Memory.listRecords (m : Memory.MemoryStore) (ownerUserId : Str) : List ListRow :=
  (m.lists.rows.filter fun l => l.owner = Memory.ownerKey ownerUserId).map Memory.MemoryList.record

def Memory.listItemEntries (m : Memory.MemoryStore) (ownerUserId listName : Str) :
    List ItemSummary :=
  match m.lists.find? (Memory.ownerKey ownerUserId, listName) with
  | none => []
  | some l => l.entries.map fun i => i.entry.summary

def StorageCall.run (db : ListDb) : StorageCall → StorageReply
  | .typed c => .typed (c.run.reply db)
  | .listRecords owner => .records (Lists.listRecords db owner)
  | .listItemEntries owner name => .entries (Lists.listItemEntries db owner name)

def StorageCall.step (db : ListDb) : StorageCall → ListDb
  | .typed c => c.run.commit db
  | .listRecords _ | .listItemEntries _ _ => db

def Memory.runCall (m : Memory.MemoryStore) : StorageCall → StorageReply
  | .typed c => .typed ((Memory.run c).reply m)
  | .listRecords owner => .records (Memory.listRecords m owner)
  | .listItemEntries owner name => .entries (Memory.listItemEntries m owner name)

def Memory.stepCall (m : Memory.MemoryStore) : StorageCall → Memory.MemoryStore
  | .typed c => (Memory.run c).commit m
  | .listRecords _ | .listItemEntries _ _ => m

end Reads

section Renaming

variable (ρ : Str ≃ Str)

def ItemEntry.rename (i : ItemEntry) : ItemEntry :=
  { i with itemId := ρ i.itemId, listId := ρ i.listId }

def ItemSummary.rename (i : ItemSummary) : ItemSummary := { i with itemId := ρ i.itemId }

def OperationResult.rename : OperationResult → OperationResult
  | .created isNew listId => .created isNew (ρ listId)
  | .added existing itemIds listId => .added existing (itemIds.map ρ) (ρ listId)
  | .updated item changed version => .updated (item.rename ρ) changed version
  | .removed rows remaining changed version =>
    .removed (rows.map (ItemEntry.rename ρ)) remaining changed version
  | .cleared count changed version => .cleared count changed version
  | .deleted done count changed version => .deleted done count changed version

/-- The same call for the other storage. -/
def TypedCall.rename : TypedCall → TypedCall
  | .create freshId r => .create (ρ freshId) r
  | .add fresh r => .add (fun k => ρ (fresh k)) { r with listId := ρ r.listId }
  | .mutate r => .mutate { r with listId := ρ r.listId, itemIds := r.itemIds.map ρ }

def StorageCall.rename : StorageCall → StorageCall
  | .typed c => .typed (c.rename ρ)
  | .listRecords owner => .listRecords owner
  | .listItemEntries owner name => .listItemEntries owner name

/-- Two outcomes agree in what both storages report. -/
def Outcome.Agrees : Outcome → Outcome → Prop
  | .collection row created replay, .collection row' created' replay' =>
    row'.listId = ρ row.listId ∧ row'.ownerUserId = row.ownerUserId ∧
      row'.listNameNormalized = row.listNameNormalized ∧ row'.updatedAt = row.updatedAt ∧
      created' = created ∧ replay' = replay
  | .items listId rows existing replay, .items listId' rows' existing' replay' =>
    listId' = ρ listId ∧ rows' = rows.map (ItemEntry.rename ρ) ∧ existing' = existing ∧
      replay' = replay
  | .mutation result replay, .mutation result' replay' =>
    result' = result.rename ρ ∧ replay' = replay
  | .collection .., _ | .items .., _ | .mutation .., _ => False

/-- What `list_records` reports of a list in both storages. -/
def ListRow.reported (l : ListRow) : Str × Str × Str × Str :=
  (l.listId, l.ownerUserId, l.listNameNormalized, l.updatedAt)

/-- Both storages accept a call with outcomes that agree, or both reject it; the records come
in any order. -/
def StorageReply.Agrees : StorageReply → StorageReply → Prop
  | .typed (.ok o), .typed (.ok o') => Outcome.Agrees ρ o o'
  | .typed (.error _), .typed (.error _) => True
  | .typed (.ok _), .typed (.error _) | .typed (.error _), .typed (.ok _) => False
  | .records rows, .records rows' =>
    (rows'.map ListRow.reported).Perm
      (rows.map fun l => { l with listId := ρ l.listId }.reported)
  | .entries rows, .entries rows' => rows' = rows.map (ItemSummary.rename ρ)
  | .typed _, .records _ | .typed _, .entries _ | .records _, _ | .entries _, _ => False

end Renaming

section Calls

/-- The identifiers that a call would generate. -/
def TypedCall.generated : TypedCall → List Str
  | .create freshId _ => [freshId]
  | .add fresh r => (List.range r.itemNames.length).map fresh
  | .mutate _ => []

def StorageCall.generated : StorageCall → List Str
  | .typed c => c.generated
  | .listRecords _ | .listItemEntries _ _ => []

def StorageCall.timestamp? : StorageCall → Option Str
  | .typed c => some c.timestamp
  | .listRecords _ | .listItemEntries _ _ => none

variable [PythonText]

/-- An owner or a name that is its own normal form, and not empty. -/
structure NormalText (s : Str) : Prop where
  eq : normalized s = s
  ne : s ≠ []

/-- Owners and list names are normalized, and a list identifier is passed on as it was given
out. -/
def StorageCall.Normal : StorageCall → Prop
  | .typed (.create _ r) => NormalText r.ownerUserId ∧
      normalized r.listNameNormalized = r.listNameNormalized
  | .typed (.add _ r) => NormalText r.ownerUserId ∧ strip r.listId = r.listId
  | .typed (.mutate r) => NormalText r.ownerUserId ∧ strip r.listId = r.listId
  | .listRecords owner => NormalText owner
  | .listItemEntries owner name => NormalText owner ∧ normalized name = name

/-- Where the storages answer alike: a creation is a repetition or names a new list, and an
addition of no items is not repeated after its list was deleted. -/
def StorageCall.Alike (db : ListDb) : StorageCall → Prop
  | .typed (.create _ r) => (db.operations.find? r.operationId).isSome ∨
      db.named (normalized r.ownerUserId) (normalized r.listNameNormalized) = none
  | .typed (.add fresh r) => ∀ op existing listId,
      db.operations.find? r.operationId = some op →
      op.identity = (TypedCall.add fresh r).identity → op.result = .added existing [] listId →
      (db.owned (normalized r.ownerUserId) (strip r.listId)).isSome
  | .typed (.mutate _) | .listRecords _ | .listItemEntries _ _ => True

end Calls

end HardyAI.Lists
