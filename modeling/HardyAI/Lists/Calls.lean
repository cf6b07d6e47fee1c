import HardyAI.Foundation.Trace
import HardyAI.Lists.Store

/-! The calls that reach the list tables: the typed operations, and the item operations, which
commit on their own and leave a transaction open where their statement fails. -/

open Foundation Foundation.Json

namespace HardyAI.Lists

section ItemOperations

/-- The tables, with whether a failed statement has left a transaction open. -/
structure ListStore where
  db : ListDb
  inTransaction : Bool

instance : EmptyCollection ListStore := ⟨⟨∅, false⟩⟩

structure ItemRequest where
  listId : Str
  itemName : Str
  addedBy : Str
  longDesc : Option Str
  qty : Option (BitVec 64)
  checked : Bool
  addedAt : Str
  updatedAt : Str
  operationId : Option Str

def ItemRequest.item (r : ItemRequest) (freshId : Str) (position : Int) : ListItem where
  itemId := freshId
  listId := strip r.listId
  itemName := strip r.itemName
  longDesc := (r.longDesc.map strip).filter fun s => s ≠ []
  qty := r.qty
  checked := r.checked
  position := position
  addedBy := strip r.addedBy
  addedAt := r.addedAt
  updatedAt := r.updatedAt
  operationId := r.operationId

/-- The item of an earlier call with the same operation identifier, where there is one. -/
def ItemRequest.replayed (r : ItemRequest) (db : ListDb) : Option ListItem :=
  if r.operationId.getD [] = [] then none
  else db.items.rows.find? fun i => i.operationId = r.operationId

/-- The item, with whether it is a replay. -/
def addListItem (freshId : Str) (r : ItemRequest) (s : ListStore) :
    Except PyError (ListItem × Bool) × ListStore :=
  match r.replayed s.db with
  | some i => (.ok (i, true), s)
  | none =>
    let i := r.item freshId (maxPosition (s.db.itemsOf (strip r.listId)) + 1)
    match s.db.insertItem i with
    -- The list's own row is not touched.
    | .ok db => (.ok (i, false), ⟨db, false⟩)
    | .error e => (.error e, { s with inTransaction := true })

/-- `if updated_at: UPDATE lists SET updated_at=…`. -/
def ListDb.touchList? (db : ListDb) (listId : Str) (updatedAt : Option Str) : ListDb :=
  if updatedAt.getD [] = [] then db else db.touchList listId (updatedAt.getD [])

def deleteAllListItems (listId : Str) (updatedAt : Option Str) (s : ListStore) :
    Nat × ListStore :=
  let target := strip listId
  if target = [] then (0, s)
  else
    let deleted := { s.db with items := s.db.items.delete fun i => i.listId = target }
    ((s.db.itemsOf target).length, ⟨deleted.touchList? target updatedAt, false⟩)

def deleteListItem (itemId : Str) (updatedAt : Option Str) (s : ListStore) : Bool × ListStore :=
  let target := strip itemId
  if target = [] then (false, s)
  else
    match s.db.items.find? target with
    | none => (false, ⟨s.db, false⟩)
    | some i =>
      let deleted := { s.db with items := s.db.items.delete fun i => i.itemId = target }
      (true, ⟨if i.listId = [] then deleted else deleted.touchList? i.listId updatedAt, false⟩)

def checkItem (checked : Bool) (updatedAt : Str) : Table.Assignment ListItem.itemId where
  apply i := { i with checked, updatedAt }

def setListItemChecked (itemId : Str) (checked : Bool) (updatedAt : Str) (s : ListStore) :
    Bool × ListStore :=
  let target := strip itemId
  if target = [] then (false, s)
  else
    match s.db.items.find? target with
    | none => (false, ⟨s.db, false⟩)
    | some i =>
      let set := (s.db.items.updateKey target (fun _ => true) (checkItem checked updatedAt)).2
      let updated := { s.db with items := set }
      (true, ⟨if i.listId = [] then updated else updated.touchList i.listId updatedAt, false⟩)

end ItemOperations

section Calls

/-- A typed operation, with the identifiers that it would generate. -/
inductive TypedCall
  | create (freshId : Str) (r : CreateRequest)
  | add (fresh : Nat → Str) (r : AddRequest)
  | mutate (r : MutateRequest)

def TypedCall.operationId : TypedCall → Str
  | .create _ r => r.operationId
  | .add _ r => r.operationId
  | .mutate r => r.operationId

def TypedCall.timestamp : TypedCall → Str
  | .create _ r => r.timestamp
  | .add _ r => r.timestamp
  | .mutate r => r.timestamp

inductive Call
  | typed (c : TypedCall)
  | addItem (freshId : Str) (r : ItemRequest)
  | deleteItem (itemId : Str) (updatedAt : Option Str)
  | setChecked (itemId : Str) (checked : Bool) (updatedAt : Str)
  | deleteAll (listId : Str) (updatedAt : Option Str)

def Call.timestamp? : Call → Option Str
  | .typed c => some c.timestamp
  | .addItem _ r => some r.updatedAt
  | .deleteItem _ updatedAt => updatedAt
  | .setChecked _ _ updatedAt => some updatedAt
  | .deleteAll _ updatedAt => updatedAt

variable [PythonText]

def TypedCall.run : TypedCall → Transaction ListDb Outcome
  | .create freshId r => createListWithOperation freshId r
  | .add fresh r => addListItemsWithOperation fresh r
  | .mutate r => mutateListWithOperation r

/-- What a typed operation raises in an open transaction, where `BEGIN IMMEDIATE` fails. -/
def TypedCall.refusal : TypedCall → PyError
  | .create .. | .add .. => .operationalError
  | .mutate r => match Mutation.ofText? r.action with
    | none => .valueError "list_operation_action_invalid"
    | some _ => .operationalError

def ListStore.transact (s : ListStore) (c : TypedCall) : Except PyError Outcome × ListStore :=
  if s.inTransaction then (.error c.refusal, s)
  else (c.run.reply s.db, { s with db := c.run.commit s.db })

def step (s : ListStore) : Call → ListStore
  | .typed c => (s.transact c).2
  | .addItem freshId r => (addListItem freshId r s).2
  | .deleteItem itemId updatedAt => (deleteListItem itemId updatedAt s).2
  | .setChecked itemId checked updatedAt => (setListItemChecked itemId checked updatedAt s).2
  | .deleteAll listId updatedAt => (deleteAllListItems listId updatedAt s).2

end Calls

end HardyAI.Lists
