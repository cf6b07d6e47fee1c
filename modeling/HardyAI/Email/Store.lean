import HardyAI.Foundation.Json
import HardyAI.Foundation.Table
import HardyAI.Foundation.Transaction

/-! The Email store: the reference sets that number the messages a channel was
shown, and the ledger of queued Gmail label operations. -/

open Foundation Foundation.Json

namespace HardyAI.Email

section Tables

/-- A row of `email_reference_sets`. -/
structure ReferenceSet where
  referenceSetId : Str
  userId : Str
  discordChannelId : Str
  queryText : Str
  orderedMessageIds : List Str
  orderedThreadIds : List Str
  focusedMessageId : Option Str
  focusedThreadId : Option Str
  createdAt : Str
  expiresAt : Str
  deriving DecidableEq

inductive ToolOperationStatus
  | reserved | queued | completed | partially | failed | cancelled
  deriving DecidableEq

def ToolOperationStatus.value : ToolOperationStatus → Str
  | .reserved => "reserved"
  | .queued => "queued"
  | .completed => "completed"
  | .partially => "partial"
  | .failed => "failed"
  | .cancelled => "cancelled"

/-- A row of `email_tool_operations`. -/
structure ToolOperation where
  operationId : Str
  toolId : Str
  ownerUserId : Str
  discordChannelId : Str
  argumentsHash : Str
  expectedChildCount : Nat
  recoveryManifestJson : Str
  recoveryManifestHash : Str
  status : ToolOperationStatus
  createdAt : Str
  deriving DecidableEq

inductive LabelAction
  | apply | remove
  deriving DecidableEq

def LabelAction.value : LabelAction → Str
  | .apply => "apply"
  | .remove => "remove"

inductive ChildStatus
  | queued | claimed | verified | deadLetter | cancelled
  deriving DecidableEq

/-- A row of `email_managed_label_operations`. -/
structure LabelOperation where
  childOperationId : Str
  parentOperationId : Str
  childIndex : Nat
  gmailMessageId : Str
  action : LabelAction
  managedLabelRefs : List Str
  argumentsHash : Str
  idempotencyKey : Str
  status : ChildStatus
  attemptCount : Int
  maxAttempts : Int
  leaseOwner : Option Str
  leaseExpiresAt : Option Str
  leaseFencingToken : Int
  nextAttemptAt : Str
  createdAt : Str
  updatedAt : Str
  deriving DecidableEq

structure EmailDb where
  referenceSets : Table ReferenceSet.referenceSetId
  /-- The keys of `email_messages`. -/
  messageIds : List Str
  operations : Table ToolOperation.operationId
  labelOperations : Table LabelOperation.childOperationId

instance : EmptyCollection EmailDb := ⟨⟨∅, [], ∅, ∅⟩⟩

end Tables

section References

structure ReferenceSetRequest where
  referenceSetId : Str
  userId : Str
  discordChannelId : Str
  queryText : Str
  messageIds : List Str
  threadIds : List Str
  focusedMessageId : Option Str
  focusedThreadId : Option Str
  createdAt : Str
  expiresAt : Str

def createReferenceSet (r : ReferenceSetRequest) : Transaction EmailDb ReferenceSet := fun db =>
  let row : ReferenceSet := {
    referenceSetId := r.referenceSetId, userId := r.userId, discordChannelId := r.discordChannelId
    queryText := (join " " (splitWords r.queryText)).take 4000
    orderedMessageIds := r.messageIds.take 50, orderedThreadIds := r.threadIds.take 50
    focusedMessageId := r.focusedMessageId, focusedThreadId := r.focusedThreadId
    createdAt := r.createdAt, expiresAt := r.expiresAt }
  match db.referenceSets.insert? row with
  | none => .error .integrityError
  | some sets => .ok (row, { db with referenceSets := sets })

def ReferenceSet.live (userId discordChannelId now : Str) (s : ReferenceSet) : Bool :=
  s.userId = userId && s.discordChannelId = discordChannelId && now < s.expiresAt

/-- `ORDER BY created_at DESC, rowid DESC`, for rows taken in the order of their rowids. -/
def ReferenceSet.latest : Option ReferenceSet → ReferenceSet → Option ReferenceSet
  | none, s => some s
  | some best, s => if best.createdAt ≤ s.createdAt then some s else some best

def latestReferenceSet (db : EmailDb) (userId discordChannelId now : Str) : Option ReferenceSet :=
  (db.referenceSets.rows.filter (ReferenceSet.live userId discordChannelId now)).foldl
    ReferenceSet.latest none

structure ResolvedReference where
  reference : Option Str
  gmailMessageId : Option Str
  gmailThreadId : Option Str
  referenceSetId : Str
  deriving DecidableEq

def focusWords : List Str :=
  [text "", "it", "that", "this", "the message", "that message", "the email"]

def optional (s : Str) : Option Str := if s = [] then none else some s

variable [PythonText]

/-- The number of `e(\d{1,2})`. -/
def referenceNumber? : Str → Option Nat
  | [c, d] => do
    guard (text "e" = [c])
    let n ← PythonText.decimal d
    some n.val
  | [c, d, d'] => do
    guard (text "e" = [c])
    let n ← PythonText.decimal d
    let n' ← PythonText.decimal d'
    some (10 * n.val + n'.val)
  | _ => none

def focused (current : ReferenceSet) : ResolvedReference where
  reference := none
  gmailMessageId :=
    let focus := strip (current.focusedMessageId.getD [])
    optional (if focus = [] then current.orderedMessageIds.headD [] else focus)
  gmailThreadId :=
    let focus := strip (current.focusedThreadId.getD [])
    optional (if focus = [] then current.orderedThreadIds.headD [] else focus)
  referenceSetId := current.referenceSetId

def resolveReference (db : EmailDb) (userId discordChannelId : Str) (reference : Option Str)
    (now : Str) : Option ResolvedReference := do
  let current ← latestReferenceSet db userId discordChannelId now
  let normalized := PythonText.casefold (strip (reference.getD []))
  if normalized ∈ focusWords then some (focused current)
  else
    let number ← referenceNumber? normalized
    guard (1 ≤ number)
    let messageId ← current.orderedMessageIds[number - 1]?
    some ⟨some (text "E" ++ natText number), some messageId,
      current.orderedThreadIds[number - 1]?, current.referenceSetId⟩

end References

section LabelOperations

def providerTools : List Str :=
  ["email.apply_labels", "email.remove_labels", "email.set_read_state", "email.archive_messages",
    "email.restore_to_inbox"]

/-- An element of `children` as the executor hands it over. -/
structure ChildRequest where
  childOperationId : Str
  childIndex : Nat
  gmailMessageId : Str
  action : LabelAction
  managedLabelRefs : List Str
  argumentsHash : Str
  idempotencyKey : Str
  deriving DecidableEq

structure ReserveRequest where
  operationId : Str
  toolId : Str
  ownerUserId : Str
  discordChannelId : Str
  argumentsHash : Str
  recoveryManifest : Json
  recoveryManifestHash : Str
  children : List ChildRequest
  now : Str
  maxAttempts : Int

def ReserveRequest.row (r : ReserveRequest) (c : ChildRequest) : LabelOperation where
  childOperationId := c.childOperationId
  parentOperationId := r.operationId
  childIndex := c.childIndex
  gmailMessageId := c.gmailMessageId
  action := c.action
  managedLabelRefs := c.managedLabelRefs
  argumentsHash := c.argumentsHash
  idempotencyKey := c.idempotencyKey
  status := .queued
  attemptCount := 0
  maxAttempts := max 1 (min r.maxAttempts 10)
  leaseOwner := none
  leaseExpiresAt := none
  leaseFencingToken := 0
  nextAttemptAt := r.now
  createdAt := r.now
  updatedAt := r.now

/-- The rows that share a unique column other than the key with a new row. -/
def LabelOperation.clash (new old : LabelOperation) : Bool :=
  old.idempotencyKey = new.idempotencyKey ||
    (old.parentOperationId = new.parentOperationId && old.childIndex = new.childIndex)

def ReserveRequest.insertChild (r : ReserveRequest) (messageIds : List Str)
    (t : Table LabelOperation.childOperationId) (c : ChildRequest) :
    Except PyError (Table LabelOperation.childOperationId) := do
  require (1 ≤ c.childIndex && c.childIndex ≤ 50) .integrityError
  require (messageIds.contains c.gmailMessageId) .integrityError
  match t.insertApart? (r.row c).clash (r.row c) with
  | none => .error .integrityError
  | some t' => .ok t'

/-- What the caller learns: the status of the operation and whether it was reserved before. -/
abbrev Reservation := ToolOperationStatus × Bool

variable [PythonText]

/-- `reserve_managed_label_operation`. -/
def reserveManagedLabelOperation (r : ReserveRequest) : Transaction EmailDb Reservation := fun db => do
  require (providerTools.contains r.toolId) (.valueError "email_operation_tool_invalid")
  require (1 ≤ r.children.length && r.children.length ≤ 50)
    (.valueError "email_operation_children_invalid")
  let manifestJson ← dump true r.recoveryManifest
  match db.operations.find? r.operationId with
  | some current =>
    require (current.toolId = r.toolId && current.ownerUserId = r.ownerUserId &&
      current.discordChannelId = r.discordChannelId && current.argumentsHash = r.argumentsHash &&
      current.expectedChildCount = r.children.length &&
      current.recoveryManifestHash = r.recoveryManifestHash)
      (.valueError "email_operation_id_conflict")
    require (db.labelOperations.count (fun c => c.parentOperationId = r.operationId) =
      r.children.length) (.valueError "email_operation_child_set_incomplete")
    .ok ((current.status, true), db)
  | none =>
    let parent : ToolOperation := {
      operationId := r.operationId, toolId := r.toolId, ownerUserId := r.ownerUserId
      discordChannelId := r.discordChannelId, argumentsHash := r.argumentsHash
      expectedChildCount := r.children.length, recoveryManifestJson := manifestJson
      recoveryManifestHash := r.recoveryManifestHash, status := .queued, createdAt := r.now }
    match db.operations.insert? parent with
    | none => .error .integrityError
    | some operations =>
      let children ← r.children.foldlM (r.insertChild db.messageIds) db.labelOperations
      .ok ((.queued, false), { db with operations, labelOperations := children })

end LabelOperations

end HardyAI.Email
