import HardyAI.Foundation.Json
import HardyAI.Foundation.Table

/-! The list tables of the SQLite store: the typed operations, which record their identity and
their result, and the item operations that come before them. -/

open Foundation Foundation.Json

namespace HardyAI.Lists

section Tables

/-- A row of `lists`. -/
structure ListRow where
  listId : Str
  ownerUserId : Str
  listName : Str
  listNameNormalized : Str
  createdBy : Str
  createdAt : Str
  updatedAt : Str
  deriving DecidableEq

/-- A row of `list_items`. -/
structure ListItem where
  itemId : Str
  listId : Str
  itemName : Str
  longDesc : Option Str
  qty : Option (BitVec 64)
  checked : Bool
  position : Int
  addedBy : Str
  addedAt : Str
  updatedAt : Str
  operationId : Option Str
  deriving DecidableEq

/-- The columns of an item that the typed operations report. -/
structure ItemEntry where
  itemId : Str
  listId : Str
  itemName : Str
  checked : Bool
  position : Int
  addedAt : Str
  updatedAt : Str
  deriving DecidableEq

def ListItem.entry (i : ListItem) : ItemEntry :=
  ⟨i.itemId, i.listId, i.itemName, i.checked, i.position, i.addedAt, i.updatedAt⟩

inductive Mutation
  | updateItem | removeItems | clearCollection | deleteCollection
  deriving DecidableEq

inductive ListAction
  | createCollection | addItems | mutation (m : Mutation)
  deriving DecidableEq

def Mutation.value : Mutation → Str
  | .updateItem => "lists.update_item"
  | .removeItems => "lists.remove_items"
  | .clearCollection => "lists.clear_collection"
  | .deleteCollection => "lists.delete_collection"

def Mutation.ofText? (s : Str) : Option Mutation :=
  [.updateItem, .removeItems, .clearCollection, .deleteCollection].find? fun m => m.value = s

/-- The `result_json` of an operation. -/
inductive OperationResult
  | created (created : Bool) (listId : Str)
  | added (existingItemCount : Nat) (itemIds : List Str) (listId : Str)
  | updated (item : ItemEntry) (changed : Bool) (collectionVersion : Str)
  | removed (items : List ItemEntry) (remainingItemCount : Nat) (changed : Bool)
      (collectionVersion : Str)
  | cleared (removedItemCount : Nat) (changed : Bool) (collectionVersion : Str)
  | deleted (deleted : Bool) (deletedItemCount : Nat) (changed : Bool) (collectionVersion : Str)
  deriving DecidableEq

/-- A row of `list_operations`, all of which are completed. -/
structure ListOperation where
  operationId : Str
  ownerUserId : Str
  action : ListAction
  targetRef : Str
  argumentsHash : Str
  result : OperationResult
  createdAt : Str
  deriving DecidableEq

structure ListDb where
  lists : Table ListRow.listId
  items : Table ListItem.itemId
  operations : Table ListOperation.operationId

instance : EmptyCollection ListDb := ⟨⟨∅, ∅, ∅⟩⟩

/-- The items of a list, in table order. -/
def ListDb.itemsOf (db : ListDb) (listId : Str) : List ListItem :=
  db.items.rows.filter fun i => i.listId = listId

/-- `SELECT … FROM lists WHERE owner_user_id=? AND list_id=?`. -/
def ListDb.owned (db : ListDb) (owner listId : Str) : Option ListRow :=
  (db.lists.find? listId).filter fun l => l.ownerUserId = owner

def ListDb.named (db : ListDb) (owner name : Str) : Option ListRow :=
  db.lists.rows.find? fun l => l.ownerUserId = owner && l.listNameNormalized = name

def touch (timestamp : Str) : Table.Assignment ListRow.listId where
  apply l := { l with updatedAt := timestamp }

/-- `UPDATE lists SET updated_at=? WHERE list_id=?`. -/
def ListDb.touchList (db : ListDb) (listId timestamp : Str) : ListDb :=
  { db with lists := (db.lists.updateKey listId (fun _ => true) (touch timestamp)).2 }

end Tables

section Operations

/-- What a typed operation returns, with whether it was a replay. -/
inductive Outcome
  | collection (row : ListRow) (created idempotentReplay : Bool)
  | items (listId : Str) (items : List ItemEntry) (existingItemCount : Nat)
      (idempotentReplay : Bool)
  | mutation (result : OperationResult) (idempotentReplay : Bool)
  deriving DecidableEq

/-- The record of an operation identifier, which has to be of the same operation. -/
def ListDb.recorded (db : ListDb) (operationId : Str) (same : ListOperation → Bool) :
    Except PyError (Option ListOperation) :=
  match db.operations.find? operationId with
  | none => .ok none
  | some op => if same op then .ok (some op) else .error (.valueError "list_operation_id_conflict")

def ListDb.record (db : ListDb) (op : ListOperation) : Except PyError ListDb :=
  match db.operations.insert? op with
  | none => .error .integrityError
  | some operations => .ok { db with operations }

/-- The unique columns of `lists` beside the key. -/
def ListRow.clash (new old : ListRow) : Bool :=
  old.ownerUserId = new.ownerUserId && old.listNameNormalized = new.listNameNormalized

/-- The unique index of `list_items`, which leaves out the rows without an operation. -/
def ListItem.clash (new old : ListItem) : Bool :=
  new.operationId.isSome && old.operationId = new.operationId

/-- The list of that owner and name, or else a new one, with whether it is new. -/
def ListDb.findOrInsert (db : ListDb) (new : ListRow) : Except PyError (ListRow × Bool × ListDb) :=
  match db.named new.ownerUserId new.listNameNormalized with
  | some row => .ok (row, false, db)
  | none =>
    match db.lists.insertApart? new.clash new with
    | none => .error .integrityError
    | some lists => .ok (new, true, { db with lists })

def ListDb.insertItem (db : ListDb) (i : ListItem) : Except PyError ListDb :=
  match db.items.insertApart? i.clash i with
  | none => .error .integrityError
  | some items => do
    require (db.lists.find? i.listId).isSome .integrityError
    .ok { db with items }

variable [PythonText]

/-- `owner_user_id.strip().lower()`. -/
def normalized (s : Str) : Str := PythonText.lower (strip s)

structure CreateRequest where
  ownerUserId : Str
  listName : Str
  listNameNormalized : Str
  createdBy : Str
  timestamp : Str
  operationId : Str
  argumentsHash : Str

def CreateRequest.row (r : CreateRequest) (freshId : Str) : ListRow where
  listId := freshId
  ownerUserId := normalized r.ownerUserId
  listName := strip r.listName
  listNameNormalized := normalized r.listNameNormalized
  createdBy := strip r.createdBy
  createdAt := r.timestamp
  updatedAt := r.timestamp

/-- `bool(replay_result.get("created"))`. -/
def OperationResult.wasCreated : OperationResult → Bool
  | .created wasNew _ => wasNew
  | .added .. | .updated .. | .removed .. | .cleared .. | .deleted .. => false

def createListWithOperation (freshId : Str) (r : CreateRequest) : Transaction ListDb Outcome :=
  fun db => do
    let owner := normalized r.ownerUserId
    match ← db.recorded r.operationId fun op => op.ownerUserId = owner &&
        op.action = .createCollection && op.argumentsHash = r.argumentsHash with
    | some op =>
      match db.owned owner op.targetRef with
      | none => .error (.valueError "list_operation_replay_target_missing")
      | some row => .ok (.collection row op.result.wasCreated true, db)
    | none =>
      let (row, created, inserted) ← db.findOrInsert (r.row freshId)
      let recorded ← inserted.record {
        operationId := r.operationId, ownerUserId := owner, action := .createCollection
        targetRef := row.listId, argumentsHash := r.argumentsHash
        result := .created created row.listId, createdAt := r.timestamp }
      .ok (.collection row created false, recorded)

structure AddRequest where
  ownerUserId : Str
  listId : Str
  itemNames : List Str
  addedBy : Str
  timestamp : Str
  operationId : Str
  argumentsHash : Str

def AddRequest.item (r : AddRequest) (fresh : Nat → Str) (nextPosition : Int) (index : Nat)
    (name : Str) : ListItem where
  itemId := fresh index
  listId := strip r.listId
  itemName := name
  longDesc := none
  qty := none
  checked := false
  position := nextPosition + index
  addedBy := strip r.addedBy
  addedAt := r.timestamp
  updatedAt := r.timestamp
  operationId := some (r.operationId ++ text ":" ++ natText (index + 1))

/-- `COALESCE(MAX(position), 0)`. -/
def maxPosition (items : List ListItem) : Int := (items.map ListItem.position).max?.getD 0

/-- `SELECT … WHERE item_id=? AND list_id=?`. -/
def ListDb.itemIn (db : ListDb) (listId itemId : Str) : Option ListItem :=
  (db.items.find? itemId).filter fun i => i.listId = listId

/-- The items of a recorded addition, as they are now. -/
def replayItems (db : ListDb) (listId : Str) (op : ListOperation) :
    Except PyError (List ItemEntry × Nat) :=
  match op.result with
  | .added existing itemIds _ => do
    let rows ← itemIds.mapM fun id => match db.itemIn listId id with
      | none => .error (.valueError "list_operation_replay_target_missing")
      | some i => .ok i.entry
    .ok (rows, existing)
  | .created .. | .updated .. | .removed .. | .cleared .. | .deleted .. =>
    .error (.valueError "list_operation_result_invalid")

def addListItemsWithOperation (fresh : Nat → Str) (r : AddRequest) : Transaction ListDb Outcome :=
  fun db => do
    let owner := normalized r.ownerUserId
    let listId := strip r.listId
    match ← db.recorded r.operationId fun op => op.ownerUserId = owner &&
        op.action = .addItems && op.targetRef = listId && op.argumentsHash = r.argumentsHash with
    | some op =>
      let (rows, existing) ← replayItems db listId op
      .ok (.items listId rows existing true, db)
    | none =>
      require (db.owned owner listId).isSome (.valueError "list_collection_not_authorized")
      let existing := db.itemsOf listId
      let added := r.itemNames.zipIdx.map fun p =>
        r.item fresh (maxPosition existing + 1) p.2 p.1
      let inserted ← added.foldlM ListDb.insertItem db
      let recorded ← (inserted.touchList listId r.timestamp).record {
        operationId := r.operationId, ownerUserId := owner, action := .addItems
        targetRef := listId, argumentsHash := r.argumentsHash
        result := .added existing.length (added.map ListItem.itemId) listId
        createdAt := r.timestamp }
      .ok (.items listId (added.map ListItem.entry) existing.length false, recorded)

structure MutateRequest where
  ownerUserId : Str
  listId : Str
  action : Str
  itemIds : List Str
  patch : List (Str × Json)
  expectedVersion : Str
  timestamp : Str
  operationId : Str
  argumentsHash : Str

/-- `not patch or set(patch) - {"text", "checked"}`. -/
def invalidPatch (patch : List (Str × Json)) : Bool :=
  patch.isEmpty || patch.any fun p => p.1 ≠ text "text" && p.1 ≠ text "checked"

/-- `str(patch.get("text", …))`. -/
def patchedName (patch : List (Str × Json)) (i : ListItem) : Except PyError Str :=
  match lookup patch "text" with
  | some value => pyStr value
  | none => .ok i.itemName

/-- `bool(patch.get("checked", …))`. -/
def patchedCheck (patch : List (Str × Json)) (i : ListItem) : Bool :=
  match lookup patch "checked" with
  | some value => value.truthy
  | none => i.checked

def patchItem (itemName : Str) (checked : Bool) (timestamp : Str) :
    Table.Assignment ListItem.itemId where
  apply i := { i with itemName, checked, updatedAt := timestamp }

/-- What a mutation leaves in the items, its result without the version, and whether it
changed anything. -/
abbrev Mutated := ListDb × (Str → OperationResult) × Bool

def MutateRequest.updateItem (r : MutateRequest) (rows : List ListItem) (db : ListDb) :
    Except PyError Mutated :=
  match rows with
  | [i] => do
    require (!invalidPatch r.patch) (.valueError "list_item_patch_invalid")
    let itemName ← patchedName r.patch i
    let checked := patchedCheck r.patch i
    let changed := itemName ≠ i.itemName || checked ≠ i.checked
    if changed then
      let patch := patchItem itemName checked r.timestamp
      .ok ({ db with items := (db.items.updateKey i.itemId (fun _ => true) patch).2 },
        .updated (patch.apply i).entry true, true)
    else .ok (db, .updated i.entry false, false)
  | _ => .error (.valueError "list_item_patch_invalid")

/-- `ORDER BY position, added_at, item_id`. -/
def ListItem.positionOrder (a b : ListItem) : Prop :=
  a.position < b.position ∨ a.position = b.position ∧
    (a.addedAt < b.addedAt ∨ a.addedAt = b.addedAt ∧ a.itemId ≤ b.itemId)

instance : DecidableRel ListItem.positionOrder :=
  fun a b => by unfold ListItem.positionOrder; infer_instance

def moveItem (position : Int) : Table.Assignment ListItem.itemId where
  apply i := { i with position }

/-- The positions of the remaining items, counted from one. -/
def renumber (remaining : List ListItem) (items : Table ListItem.itemId) :
    Table ListItem.itemId :=
  (remaining.zipIdx 1).foldl (fun items p =>
    (items.updateKey p.1.itemId (fun _ => true) (moveItem p.2)).2) items

def MutateRequest.removeItems (r : MutateRequest) (rows : List ListItem) (db : ListDb) :
    Except PyError Mutated := do
  require (1 ≤ rows.length && rows.length ≤ 50) (.valueError "list_item_references_invalid")
  let kept := { db with items := db.items.delete fun i => r.itemIds.contains i.itemId }
  let remaining := (kept.itemsOf (strip r.listId)).insertionSort ListItem.positionOrder
  .ok ({ kept with items := renumber remaining kept.items },
    .removed (rows.map ListItem.entry) remaining.length true, true)

def MutateRequest.clearCollection (r : MutateRequest) (db : ListDb) : Mutated :=
  let listId := strip r.listId
  let count := (db.itemsOf listId).length
  ({ db with items := db.items.delete fun i => i.listId = listId },
    .cleared count (decide (0 < count)), decide (0 < count))

def MutateRequest.deleteCollection (r : MutateRequest) (db : ListDb) : Mutated :=
  let listId := strip r.listId
  let owned : ListRow → Bool := fun l => l.ownerUserId = normalized r.ownerUserId &&
    l.listId = listId
  let deleted : Bool := db.lists.count owned = 1
  ({ db with
      items := db.items.delete fun i => i.listId = listId
      lists := db.lists.delete owned },
    .deleted deleted (db.itemsOf listId).length deleted, deleted)

def Mutation.apply (m : Mutation) (r : MutateRequest) (rows : List ListItem) (db : ListDb) :
    Except PyError Mutated :=
  match m with
  | .updateItem => r.updateItem rows db
  | .removeItems => r.removeItems rows db
  | .clearCollection => .ok (r.clearCollection db)
  | .deleteCollection => .ok (r.deleteCollection db)

/-- The transaction of `mutate_list_with_operation`, for an action that is allowed. -/
def mutateList (m : Mutation) (r : MutateRequest) : Transaction ListDb Outcome := fun db => do
  let owner := normalized r.ownerUserId
  let listId := strip r.listId
  match ← db.recorded r.operationId fun op => op.ownerUserId = owner &&
      op.action = .mutation m && op.targetRef = listId && op.argumentsHash = r.argumentsHash with
  | some op => .ok (.mutation op.result true, db)
  | none =>
    match db.owned owner listId with
    | none => .error (.valueError "list_collection_not_authorized")
    | some row =>
      require (row.updatedAt = r.expectedVersion) (.valueError "list_collection_version_stale")
      require r.itemIds.Nodup (.valueError "list_item_references_invalid")
      let rows ← r.itemIds.mapM fun id => match db.itemIn listId id with
        | none => .error (.valueError "list_item_not_authorized")
        | some i => .ok i
      let (mutated, result, changed) ← m.apply r rows db
      let moves := changed && m ≠ .deleteCollection
      let touched := if moves then mutated.touchList listId r.timestamp else mutated
      let recorded ← touched.record {
        operationId := r.operationId, ownerUserId := owner, action := .mutation m
        targetRef := listId, argumentsHash := r.argumentsHash
        result := result (if moves then r.timestamp else r.expectedVersion)
        createdAt := r.timestamp }
      .ok (.mutation (result (if moves then r.timestamp else r.expectedVersion)) false, recorded)

def mutateListWithOperation (r : MutateRequest) : Transaction ListDb Outcome := fun db =>
  match Mutation.ofText? r.action with
  | none => .error (.valueError "list_operation_action_invalid")
  | some m => mutateList m r db

end Operations

end HardyAI.Lists
