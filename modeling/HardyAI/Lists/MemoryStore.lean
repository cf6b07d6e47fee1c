import HardyAI.Lists.Calls

/-! The lists storage that is kept in memory. The dictionaries of names, identifiers and
timestamps have the same keys under the typed operations, and are one table here. -/

open Foundation Foundation.Json

namespace HardyAI.Lists.Memory

section State

structure MemoryItem where
  itemId : Str
  listId : Str
  itemName : Str
  checked : Bool
  position : Int
  operationId : Str
  addedBy : Str
  addedAt : Str
  updatedAt : Str
  deriving DecidableEq

/-- The keys of an item that the other storage has too. -/
def MemoryItem.entry (i : MemoryItem) : ItemEntry :=
  ⟨i.itemId, i.listId, i.itemName, i.checked, i.position, i.addedAt, i.updatedAt⟩

structure MemoryList where
  owner : Str
  name : Str
  listId : Str
  updatedAt : Str
  entries : List MemoryItem
  deriving DecidableEq

def MemoryList.key (l : MemoryList) : Str × Str := (l.owner, l.name)

structure MemoryOperation where
  operationId : Str
  ownerUserId : Str
  action : ListAction
  targetRef : Str
  argumentsHash : Str
  result : OperationResult
  deriving DecidableEq

structure MemoryStore where
  lists : Table MemoryList.key
  operations : Table MemoryOperation.operationId

instance : EmptyCollection MemoryStore := ⟨⟨∅, ∅⟩⟩

/-- `_list_updated_at[(owner, name)] = timestamp`, with what is done to the entries. -/
def revise (entries : List MemoryItem → List MemoryItem) (updatedAt : Option Str) :
    Table.Assignment MemoryList.key where
  apply l := { l with entries := entries l.entries, updatedAt := updatedAt.getD l.updatedAt }

def MemoryStore.revise (m : MemoryStore) (l : MemoryList)
    (entries : List MemoryItem → List MemoryItem) (updatedAt : Option Str) : MemoryStore :=
  { m with lists := (m.lists.updateKey l.key (fun _ => true) (Memory.revise entries updatedAt)).2 }

/-- `get_list_record_by_id`. -/
def MemoryStore.byId (m : MemoryStore) (owner listId : Str) : Option MemoryList :=
  m.lists.rows.find? fun l => l.owner = owner && l.listId = listId

/-- The record of a list, which knows neither its display name nor its creator. -/
def MemoryList.record (l : MemoryList) : ListRow where
  listId := l.listId
  ownerUserId := l.owner
  listName := l.name
  listNameNormalized := l.name
  createdBy := "memory"
  createdAt := l.updatedAt
  updatedAt := l.updatedAt

/-- `self._operations[operation_id] = …`, for an identifier that is new. -/
def MemoryStore.record (m : MemoryStore) (op : MemoryOperation) : MemoryStore :=
  { m with operations := (m.operations.insert? op).getD m.operations }

def MemoryStore.recorded (m : MemoryStore) (operationId : Str) (same : MemoryOperation → Bool) :
    Except PyError (Option MemoryOperation) :=
  match m.operations.find? operationId with
  | none => .ok none
  | some op => if same op then .ok (some op) else .error (.valueError "list_operation_id_conflict")

end State

section Operations

variable [PythonText]

/-- `owner_user_id.strip().lower() or "all"`. -/
def ownerKey (ownerUserId : Str) : Str :=
  let owner := normalized ownerUserId
  if owner = [] then text "all" else owner

def createCollection (freshId : Str) (r : CreateRequest) : Transaction MemoryStore Outcome :=
  fun m => do
    let owner := ownerKey r.ownerUserId
    match ← m.recorded r.operationId fun op => op.ownerUserId = owner &&
        op.action = .createCollection && op.argumentsHash = r.argumentsHash with
    | some op =>
      match m.byId owner op.targetRef with
      | none => .error (.valueError "list_operation_replay_target_missing")
      | some l => .ok (.collection l.record op.result.wasCreated true, m)
    | none =>
      let name := r.listNameNormalized
      let found := m.lists.find? (owner, name)
      let listId := (found.map MemoryList.listId).getD freshId
      -- A list that exists is given the timestamp of the call as well.
      let kept := match found with
        | some l => m.revise l id (some r.timestamp)
        | none => { m with
            lists := (m.lists.insert? ⟨owner, name, freshId, r.timestamp, []⟩).getD m.lists }
      let row : ListRow := {
        listId, ownerUserId := owner, listName := if found.isNone then r.listName else name
        listNameNormalized := name, createdBy := r.createdBy, createdAt := r.timestamp
        updatedAt := r.timestamp }
      .ok (.collection row found.isNone false, kept.record {
        operationId := r.operationId, ownerUserId := owner, action := .createCollection
        targetRef := listId, argumentsHash := r.argumentsHash
        result := .created found.isNone listId })

def newItem (fresh : Nat → Str) (r : AddRequest) (existing index : Nat) (name : Str) :
    MemoryItem where
  itemId := fresh index
  listId := r.listId
  itemName := name
  checked := false
  position := existing + index + 1
  operationId := r.operationId
  addedBy := r.addedBy
  addedAt := r.timestamp
  updatedAt := r.timestamp

/-- The entries of a recorded addition, in the order of the list. -/
def replayEntries (l : MemoryList) (op : MemoryOperation) :
    Except PyError (List ItemEntry × Nat) :=
  let (itemIds, existing) := match op.result with
    | .added existing itemIds _ => (itemIds, existing)
    | .created .. | .updated .. | .removed .. | .cleared .. | .deleted .. => ([], 0)
  let replayed := l.entries.filter fun i => itemIds.contains i.itemId
  if replayed.length ≠ itemIds.dedup.length then
    .error (.valueError "list_operation_replay_target_missing")
  else .ok (replayed.map MemoryItem.entry, existing)

def addItems (fresh : Nat → Str) (r : AddRequest) : Transaction MemoryStore Outcome := fun m => do
  let owner := ownerKey r.ownerUserId
  match ← m.recorded r.operationId fun op => op.ownerUserId = owner &&
      op.action = .addItems && op.targetRef = r.listId && op.argumentsHash = r.argumentsHash with
  | some op =>
    match m.byId owner r.listId with
    | none => .error (.valueError "list_operation_replay_target_missing")
    | some l => do
      let (rows, existing) ← replayEntries l op
      .ok (.items r.listId rows existing true, m)
  | none =>
    match m.byId owner r.listId with
    | none => .error (.valueError "list_collection_not_authorized")
    | some l =>
      let existing := l.entries.length
      let added := r.itemNames.zipIdx.map fun p => newItem fresh r existing p.2 p.1
      .ok (.items r.listId (added.map MemoryItem.entry) existing false,
        (m.revise l (· ++ added) (some r.timestamp)).record {
          operationId := r.operationId, ownerUserId := owner, action := .addItems
          targetRef := r.listId, argumentsHash := r.argumentsHash
          result := .added existing (added.map MemoryItem.itemId) r.listId })

/-- `by_id[item_id]`, the last entry of that identifier. -/
def MemoryList.item (l : MemoryList) (itemId : Str) : Option MemoryItem :=
  l.entries.reverse.find? fun i => i.itemId = itemId

/-- What a mutation does to the entries, its result without the version, and whether it
changed anything. -/
abbrev Mutated := (List MemoryItem → List MemoryItem) × (Str → OperationResult) × Bool

/-- `str(patch["text"])`, where the patch has a text. -/
def patchedText (patch : List (Str × Json)) (i : MemoryItem) : Except PyError Str :=
  match lookup patch "text" with
  | some value => pyStr value
  | none => .ok i.itemName

def patchedFlag (patch : List (Str × Json)) (i : MemoryItem) : Bool :=
  match lookup patch "checked" with
  | some value => value.truthy
  | none => i.checked

def updateItem (r : MutateRequest) (rows : List MemoryItem) : Except PyError Mutated :=
  match rows with
  | [i] => do
    require (!invalidPatch r.patch) (.valueError "list_item_patch_invalid")
    let itemName ← patchedText r.patch i
    let checked := patchedFlag r.patch i
    let changed := itemName ≠ i.itemName || checked ≠ i.checked
    let patched := if changed then { i with itemName, checked, updatedAt := r.timestamp } else i
    .ok (List.map fun j => if j.itemId = i.itemId then patched else j,
      .updated patched.entry changed, changed)
  | _ => .error (.valueError "list_item_patch_invalid")

/-- `for position, item in enumerate(entries, start=1): item["position"] = position`. -/
def renumbered (entries : List MemoryItem) : List MemoryItem :=
  (entries.zipIdx 1).map fun p => { p.1 with position := p.2 }

def removeItems (r : MutateRequest) (l : MemoryList) (rows : List MemoryItem) :
    Except PyError Mutated := do
  require (1 ≤ rows.length && rows.length ≤ 50) (.valueError "list_item_references_invalid")
  let kept (entries : List MemoryItem) := entries.filter fun i => !r.itemIds.contains i.itemId
  .ok (fun entries => renumbered (kept entries),
    .removed (rows.map MemoryItem.entry) (kept l.entries).length true, true)

def applyMutation (m : Mutation) (r : MutateRequest) (l : MemoryList) (rows : List MemoryItem) :
    Except PyError Mutated :=
  match m with
  | .updateItem => updateItem r rows
  | .removeItems => removeItems r l rows
  | .clearCollection =>
    let changed : Bool := 0 < l.entries.length
    .ok (fun _ => [], .cleared l.entries.length changed, changed)
  | .deleteCollection => .ok (id, .deleted true l.entries.length true, true)

def mutateCollection (r : MutateRequest) : Transaction MemoryStore Outcome := fun m =>
  match Mutation.ofText? r.action with
  | none => .error (.valueError "list_operation_action_invalid")
  | some action => do
    let owner := ownerKey r.ownerUserId
    match ← m.recorded r.operationId fun op => op.ownerUserId = owner &&
        op.action = .mutation action && op.targetRef = r.listId &&
        op.argumentsHash = r.argumentsHash with
    | some op => .ok (.mutation op.result true, m)
    | none =>
      match m.byId owner r.listId with
      | none => .error (.valueError "list_collection_not_authorized")
      | some l =>
        require (l.updatedAt = r.expectedVersion) (.valueError "list_collection_version_stale")
        require r.itemIds.Nodup (.valueError "list_item_not_authorized")
        let rows ← r.itemIds.mapM fun id => match l.item id with
          | none => .error (.valueError "list_item_not_authorized")
          | some i => .ok i
        let (entries, result, changed) ← applyMutation action r l rows
        let moves := changed && action ≠ .deleteCollection
        let version := if moves then r.timestamp else r.expectedVersion
        let mutated := if action = .deleteCollection then
            { m with lists := m.lists.delete fun l' => l'.key = l.key }
          else m.revise l entries (if moves then some r.timestamp else none)
        .ok (.mutation (result version) false, mutated.record {
          operationId := r.operationId, ownerUserId := owner, action := .mutation action
          targetRef := r.listId, argumentsHash := r.argumentsHash, result := result version })

def run : TypedCall → Transaction MemoryStore Outcome
  | .create freshId r => createCollection freshId r
  | .add fresh r => addItems fresh r
  | .mutate r => mutateCollection r

end Operations

end HardyAI.Lists.Memory
