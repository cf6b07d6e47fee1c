import HardyAI.Jobs.Repository
import HardyAI.Tickets.Types

/-! The operations of the ticket repository, each of them one transaction. The identifiers that
an operation generates are among its arguments. -/

open Foundation Foundation.Json HardyAI.Jobs

namespace HardyAI.Tickets

/-- `value or iso_utc()`. -/
def orNow (value : Option Str) (now : Instant) : Str :=
  if value.getD [] = [] then isoUtc now else value.getD []

section Transitions

/-- `_ALLOWED_TRANSITIONS`. -/
def allowedTransitions : TicketStatus → Option (List TicketStatus)
  | .captured =>
    some [.waitingClarification, .executing, .cancelled, .unverifiable, .reconciliationRequired]
  | .waitingClarification => some [.waitingClarification, .executing, .cancelled, .unverifiable]
  | .executing =>
    some [.executing, .waitingClarification, .verificationPending, .unverifiable,
      .reconciliationRequired, .escalated, .cancelled]
  | .verificationPending =>
    some [.verificationPending, .verifying, .unverifiable, .cancelled, .escalated]
  | .verifying =>
    some [.verifying, .verificationPending, .verified, .superseded, .remediationQueued,
      .unverifiable, .reconciliationRequired, .escalated]
  | .reconciliationRequired =>
    some [.executing, .verificationPending, .reconciliationRequired, .escalated, .cancelled]
  | .verified | .superseded | .remediationQueued | .unverifiable | .escalated | .cancelled => none

/-- `_TERMINAL_REOPEN_TARGETS`. -/
def terminalReopenTargets : List TicketStatus :=
  [.verificationPending, .verified, .cancelled, .escalated]

/-- The table allows this status as the next one. -/
def TicketStatus.Allows (current next : TicketStatus) : Prop :=
  next ∈ (allowedTransitions current).getD terminalReopenTargets

instance (current next : TicketStatus) : Decidable (current.Allows next) := by
  unfold TicketStatus.Allows; infer_instance

structure CreateArgs where
  ticketId : Str
  originRequestId : Str
  sessionId : Str
  userId : Str
  agentId : Str
  source : Str
  intent : Str
  skillId : Option Str
  route : Str
  title : Str
  status : TicketStatus := .captured
  resourceKey : Option Str := none
  ticketKind : TicketKind := .original
  parentTicketId : Option Str := none
  rootTicketId : Option Str := none
  remediationGeneration : Int := 0
  createdAt : Option Str := none

def CreateArgs.row (a : CreateArgs) (now : Instant) : Ticket where
  ticketId := a.ticketId
  rootTicketId := if a.rootTicketId.getD [] = [] then a.ticketId else a.rootTicketId.getD []
  parentTicketId := a.parentTicketId
  ticketKind := a.ticketKind
  remediationGeneration := max 0 a.remediationGeneration
  status := a.status
  version := 1
  originRequestId := a.originRequestId
  sessionId := a.sessionId
  userId := a.userId
  agentId := a.agentId
  source := a.source
  intent := a.intent
  skillId := a.skillId
  route := a.route
  resourceKey := a.resourceKey
  title := a.title.take 240
  createdAt := orNow a.createdAt now
  lastMaterialActivityAt := orNow a.createdAt now
  completedAt := none
  reviewDueAt := none
  sourceActionRevision := none
  expectedEffectHash := none
  planeWorkItemId := none
  planeSyncStatus := "not_configured"
  terminalReason := none

def TicketDb.ticketByRequest? (db : TicketDb) (requestId : Str) : Option Ticket :=
  db.tickets.rows.find? fun t => t.originRequestId = requestId

/-- The tickets that a row refers to: the root, which may be the row itself, and the parent. -/
def TicketDb.refersToTickets (db : TicketDb) (row : Ticket) : Bool :=
  (row.rootTicketId = row.ticketId || (db.tickets.find? row.rootTicketId).isSome) &&
    row.parentTicketId.all fun parent =>
      parent = row.ticketId || (db.tickets.find? parent).isSome

/-- `create_ticket`: `INSERT OR IGNORE`, unless the request has a ticket already. -/
def createTicket (a : CreateArgs) (now : Instant) : Transaction TicketDb (Option Ticket) :=
  fun db =>
    match db.ticketByRequest? a.originRequestId with
    | some existing => .ok (some existing, db)
    | none =>
      match db.tickets.insert? (a.row now) with
      | none => .ok (none, db)
      | some tickets => do
        require (db.refersToTickets (a.row now)) .integrityError
        .ok (some (a.row now), { db with tickets })

structure TransitionArgs where
  ticketId : Str
  status : TicketStatus
  expectedVersion : Option Int := none
  resourceKey : Option Str := none
  completedAt : Option Str := none
  reviewDueAt : Option Str := none
  sourceActionRevision : Option Str := none
  expectedEffectHash : Option Str := none
  terminalReason : Option Str := none
  materialActivityAt : Option Str := none

abbrev TicketAssignment := Table.Assignment Ticket.ticketId

/-- The `SET` clause of `transition_ticket`: a column is left alone where its value is absent. -/
def transitioned (a : TransitionArgs) (now : Instant) : TicketAssignment where
  apply t := { t with
    status := a.status
    version := t.version + 1
    lastMaterialActivityAt := orNow a.materialActivityAt now
    resourceKey := a.resourceKey.or t.resourceKey
    completedAt := a.completedAt.or t.completedAt
    reviewDueAt := a.reviewDueAt.or t.reviewDueAt
    sourceActionRevision := a.sourceActionRevision.or t.sourceActionRevision
    expectedEffectHash := a.expectedEffectHash.or t.expectedEffectHash
    terminalReason := a.terminalReason.or t.terminalReason }

def TicketDb.updateTicket (db : TicketDb) (ticketId : Str) (a : TicketAssignment) : TicketDb :=
  { db with tickets := db.tickets.update (fun t => t.ticketId = ticketId) a }

def invalidTransition (current next : TicketStatus) : PyError :=
  .valueError ("Invalid ticket transition: " ++ current.value ++ " -> " ++ next.value)

/-- `transition_ticket`. -/
def transitionTicket (a : TransitionArgs) (now : Instant) : Transaction TicketDb (Option Ticket) :=
  fun db =>
    match db.tickets.find? a.ticketId with
    | none => .ok (none, db)
    | some current => do
      require (a.status = current.status || current.status.Allows a.status)
        (invalidTransition current.status a.status)
      if a.expectedVersion.all (· = current.version) then
        .ok (some ((transitioned a now).apply current), db.updateTicket a.ticketId (transitioned a now))
      else .ok (none, db)

def planeMapped (workItemId : Option Str) (syncStatus : Str) : TicketAssignment where
  apply t := { t with
    planeWorkItemId := workItemId.or t.planeWorkItemId, planeSyncStatus := syncStatus
    version := t.version + 1 }

def updatePlaneMapping (ticketId : Str) (workItemId : Option Str) (syncStatus : Str) :
    Transaction TicketDb (Option Ticket) := fun db =>
  let db' := db.updateTicket ticketId (planeMapped workItemId syncStatus)
  .ok (db'.tickets.find? ticketId, db')

end Transitions

variable [PythonText]

section Entries

structure EntryArgs where
  entryId : Str
  ticketId : Str
  requestId : Str
  entryType : TicketEntryType
  actorType : Str
  actorId : Option Str := none
  verbatimText : Option Str := none
  structuredPayload : Json := .obj []
  dedupeKey : Str
  createdAt : Option Str := none
  conflictCode : Option String := none

/-- The hash of an entry's text and payload. -/
def entryHash (verbatimText : Option Str) (payload : Json) : Except PyError Str :=
  contentHash (.obj [("text", optionalText verbatimText), ("payload", payload)])

/-- The columns that a replayed entry has to share with the row of its key. -/
def TicketEntry.matches (e : TicketEntry) (a : EntryArgs) (hash : Str) : Bool :=
  e.ticketId = a.ticketId && e.requestId = a.requestId && e.entryType = a.entryType &&
    e.actorType = a.actorType && e.actorId = a.actorId && e.verbatimText = a.verbatimText &&
    sameText e.structuredPayload a.structuredPayload && e.contentHash = hash

def TicketDb.listEntries (db : TicketDb) (ticketId : Str) : List TicketEntry :=
  db.entries.rows.filter fun e => e.ticketId = ticketId

def TicketDb.nextSequence (db : TicketDb) (ticketId : Str) : Nat :=
  ((db.listEntries ticketId).map TicketEntry.sequenceNumber).foldl max 0 + 1

def EntryArgs.row (a : EntryArgs) (sequenceNumber : Nat) (hash : Str) (now : Instant) :
    TicketEntry where
  entryId := a.entryId
  ticketId := a.ticketId
  sequenceNumber := sequenceNumber
  requestId := a.requestId
  entryType := a.entryType
  actorType := a.actorType
  actorId := a.actorId
  createdAt := orNow a.createdAt now
  verbatimText := a.verbatimText
  structuredPayload := a.structuredPayload
  contentHash := hash
  dedupeKey := a.dedupeKey

/-- `_append_entry_cursor`. -/
def appendEntryCursor (a : EntryArgs) (now : Instant) : Transaction TicketDb TicketEntry :=
  fun db => do
    let hash ← entryHash a.verbatimText a.structuredPayload
    match db.entries.find? a.dedupeKey with
    | some existing =>
      require (a.conflictCode.isNone || existing.matches a hash)
        (.valueError (a.conflictCode.getD ""))
      .ok (existing, db)
    | none =>
      let row := a.row (db.nextSequence a.ticketId) hash now
      require (db.tickets.find? a.ticketId).isSome .integrityError
      match db.entries.insertApart? (fun e => e.entryId = row.entryId) row with
      | none => .error .integrityError
      | some entries => .ok (row, { db with entries })

/-- The key of an entry that is appended without one. -/
def stableDedupe (a : EntryArgs) : Except PyError Str := do
  let hash ← entryHash a.verbatimText a.structuredPayload
  contentHash (.obj [("ticket_id", .str a.ticketId), ("request_id", .str a.requestId),
    ("entry_type", .str a.entryType.value), ("hash", .str hash)])

/-- `append_entry`, where an empty key is replaced by the stable one. -/
def appendEntry (a : EntryArgs) (now : Instant) : Transaction TicketDb TicketEntry := fun db => do
  let stable ← stableDedupe a
  let dedupeKey := if a.dedupeKey = [] then stable else a.dedupeKey
  appendEntryCursor { a with dedupeKey, conflictCode := none } now db

/-- `append_entry_exact`. -/
def appendEntryExact (a : EntryArgs) (conflictCode : String) (now : Instant) :
    Transaction TicketDb TicketEntry :=
  appendEntryCursor
    { a with verbatimText := none, createdAt := none, conflictCode := some conflictCode } now

def manifestKey (parentOperationId : Str) : Str :=
  text "tool-execution-manifest:v1:" ++ parentOperationId

def TicketDb.listExecutionManifests (db : TicketDb) (ticketId : Str) : List TicketEntry :=
  db.entries.rows.filter fun e => e.ticketId = ticketId && e.entryType = .executionManifest

/-- What a domain reservation returns: its status, or an answer of another shape. -/
structure DomainResult where
  status : Str
  recoveryManifestHash : Str
  wellShaped : Bool

structure ManifestArgs where
  entryId : Str
  ticketId : Str
  requestId : Str
  manifest : List (Str × Json)
  manifestHash : Str
  domainReservation : Option (Except PyError DomainResult) := none

/-- The text of a hash, empty for a value that is none. -/
def hashText : Option Json → Str
  | some (.str hash) => hash
  | _ => []

def requireDomainReservation (recoveryHash : Option Json) :
    Option (Except PyError DomainResult) → Except PyError Unit
  | none => .ok ()
  | some reservation => do
    let hash := hashText recoveryHash
    require (hash ≠ []) (.valueError "domain_recovery_manifest_hash_required")
    let result ← reservation
    require result.wellShaped (.valueError "domain_manifest_reservation_result_invalid")
    require (result.status = text "created" || result.status = text "existing")
      (.valueError "domain_manifest_reservation_status_invalid")
    require (result.recoveryManifestHash = hash)
      (.valueError "domain_manifest_reservation_hash_conflict")

/-- `reserve_execution_manifest_atomic`. -/
def reserveExecutionManifestAtomic (a : ManifestArgs) (now : Instant) :
    Transaction TicketDb TicketEntry := fun db => do
  let hash ← contentHash (.obj a.manifest)
  require (hash = a.manifestHash) (.valueError "tool_execution_manifest_hash_mismatch")
  let parentOperationId ← textOr (lookup a.manifest "parent_operation_id") []
  match db.tickets.find? a.ticketId with
  | none => .error (.keyError "ticket_id")
  | some ticket =>
    let (entry, db') ← appendEntryCursor {
      entryId := a.entryId, ticketId := a.ticketId, requestId := a.requestId
      entryType := .executionManifest, actorType := "jarvis", actorId := some ticket.agentId
      structuredPayload := .obj a.manifest, dedupeKey := manifestKey parentOperationId
      conflictCode := some "tool_execution_manifest_conflict" } now db
    requireDomainReservation (lookup a.manifest "recovery_manifest_hash") a.domainReservation
    .ok (entry, db')

end Entries

section Receipts

/-- The JSON columns of a receipt can be written. -/
def OperationReceipt.storable (r : OperationReceipt) : Except PyError Unit := do
  let _ ← dump true (.obj r.expectedEffect)
  let _ ← dump true (.obj r.resourceLocator)
  let _ ← dump true (.obj r.executionObservation)
  let _ ← dump true (.obj r.result)
  .ok ()

/-- The stored row has every column of the receipt. -/
def ReceiptRow.matches (row : ReceiptRow) (ticketId : Str) (r : OperationReceipt) : Bool :=
  row.operationId = r.operationId && row.ticketId = ticketId && row.capability = r.capability &&
    row.action = r.action && row.idempotencyKey = r.idempotencyKey &&
    row.providerResourceId = r.providerResourceId && row.providerRevision = r.providerRevision &&
    row.resourceKey = r.resourceKey && row.status = r.status && row.committedAt = r.committedAt &&
    sameText (.obj row.expectedEffect) (.obj r.expectedEffect) &&
    row.validatorName = r.validatorName && row.validatorVersion = r.validatorVersion &&
    sameText (.obj row.resourceLocator) (.obj r.resourceLocator) &&
    sameText (.obj row.executionObservation) (.obj r.executionObservation) &&
    sameText (.obj row.result) (.obj r.result)

def TicketDb.listReceipts (db : TicketDb) (ticketId : Str) : List ReceiptRow :=
  db.receipts.rows.filter fun r => r.ticketId = ticketId

/-- `_record_operation_receipt_cursor`. -/
def recordOperationReceiptCursor (ticketId : Str) (r : OperationReceipt) :
    Transaction TicketDb ReceiptRow := fun db => do
  r.storable
  let existing := db.receipts.rows.filter fun row =>
    row.idempotencyKey = r.idempotencyKey || row.operationId = r.operationId
  match existing with
  | row :: others =>
    require (others.isEmpty && row.matches ticketId r)
      (.valueError "operation_receipt_idempotency_conflict")
    .ok (row, db)
  | [] =>
    let row : ReceiptRow := { r with ticketId }
    require (db.tickets.find? ticketId).isSome .integrityError
    match db.receipts.insert? row with
    | none => .error .integrityError
    | some receipts => .ok (row, { db with receipts })

structure ExpectationArgs where
  expectationId : Str
  ticketId : Str
  operationId : Str
  capability : Str
  validatorName : Str
  validatorVersion : Str
  resourceLocator : List (Str × Json)
  expectedState : List (Str × Json)
  sourceRevisionAtExecution : Option Str

def Expectation.matches (e : Expectation) (a : ExpectationArgs) (hash : Str) : Bool :=
  e.ticketId = a.ticketId && e.operationId = a.operationId && e.capability = a.capability &&
    e.validatorName = a.validatorName && e.validatorVersion = a.validatorVersion &&
    sameText (.obj e.resourceLocator) (.obj a.resourceLocator) &&
    sameText (.obj e.expectedState) (.obj a.expectedState) && e.expectedStateHash = hash &&
    e.sourceRevisionAtExecution = a.sourceRevisionAtExecution

def ExpectationArgs.row (a : ExpectationArgs) (hash : Str) (now : Instant) : Expectation where
  expectationId := a.expectationId
  ticketId := a.ticketId
  operationId := a.operationId
  capability := a.capability
  validatorName := a.validatorName
  validatorVersion := a.validatorVersion
  resourceLocator := a.resourceLocator
  expectedState := a.expectedState
  expectedStateHash := hash
  sourceRevisionAtExecution := a.sourceRevisionAtExecution
  createdAt := isoUtc now

def TicketDb.listExpectations (db : TicketDb) (ticketId : Str) : List Expectation :=
  (db.expectations.rows.filter fun e => e.ticketId = ticketId).insertionSort
    fun a b => a.createdAt ≤ b.createdAt

/-- `_create_expectation_cursor`. -/
def createExpectationCursor (a : ExpectationArgs) (now : Instant) :
    Transaction TicketDb Expectation := fun db => do
  let hash ← contentHash (.obj a.expectedState)
  let _ ← dump true (.obj a.resourceLocator)
  match db.expectations.find? a.operationId with
  | some existing =>
    require (existing.matches a hash) (.valueError "ticket_expectation_idempotency_conflict")
    .ok (existing, db)
  | none =>
    let row := a.row hash now
    require ((db.tickets.find? a.ticketId).isSome && (db.receipts.find? a.operationId).isSome)
      .integrityError
    match db.expectations.insertApart? (fun e => e.expectationId = row.expectationId) row with
    | none => .error .integrityError
    | some expectations => .ok (row, { db with expectations })

/-- The payload of the entry that refers to a receipt. -/
def ReceiptRow.toJson (r : ReceiptRow) : Json :=
  .obj [("operation_id", .str r.operationId), ("ticket_id", .str r.ticketId),
    ("capability", .str r.capability), ("action", .str r.action),
    ("idempotency_key", .str r.idempotencyKey),
    ("provider_resource_id", optionalText r.providerResourceId),
    ("provider_revision", optionalText r.providerRevision), ("resource_key", .str r.resourceKey),
    ("outcome", .str r.status), ("committed_at", optionalText r.committedAt),
    ("validator_name", .str r.validatorName), ("validator_version", .str r.validatorVersion),
    ("expected_effect", .obj r.expectedEffect), ("resource_locator", .obj r.resourceLocator),
    ("execution_observation", .obj r.executionObservation), ("result", .obj r.result)]

/-- The expectation that a recorded receipt gives rise to. -/
def ReceiptRow.expectation (r : ReceiptRow) (expectationId ticketId operationId : Str) :
    ExpectationArgs where
  expectationId := expectationId
  ticketId := ticketId
  operationId := operationId
  capability := r.capability
  validatorName := r.validatorName
  validatorVersion := r.validatorVersion
  resourceLocator := r.resourceLocator
  expectedState := r.expectedEffect
  sourceRevisionAtExecution := r.providerRevision

/-- The receipt, its expectation and the entry that refers to them. -/
def recordEffect (ticketId requestId operationId expectationId entryId entryKey : Str)
    (r : OperationReceipt) (now : Instant) :
    Transaction TicketDb (ReceiptRow × Expectation × TicketEntry) := fun db => do
  let (recorded, db₁) ← recordOperationReceiptCursor ticketId r db
  let (expectation, db₂) ← createExpectationCursor
    (recorded.expectation expectationId ticketId operationId) now db₁
  let (entry, db₃) ← appendEntryCursor {
    entryId, ticketId, requestId, entryType := .operationReceipt, actorType := "domain"
    structuredPayload := recorded.toJson, dedupeKey := entryKey
    conflictCode := some "operation_receipt_entry_conflict" } now db₂
  .ok ((recorded, expectation, entry), db₃)

structure CompletionArgs where
  ticketId : Str
  requestId : Str
  receipt : OperationReceipt
  expectationId : Str
  entryId : Str

def completionKey (ticketId operationId : Str) : Str :=
  text "ticket:" ++ ticketId ++ text ":operation:" ++ operationId

/-- `record_operation_completion_atomic`. -/
def recordOperationCompletionAtomic (a : CompletionArgs) (now : Instant) :
    Transaction TicketDb (ReceiptRow × Expectation × TicketEntry) :=
  recordEffect a.ticketId a.requestId a.receipt.operationId a.expectationId a.entryId
    (completionKey a.ticketId a.receipt.operationId) a.receipt now

end Receipts

section Jobs

/-- An operation of the job ledger on the same connection. -/
def onJobs {α : Type} (t : Transaction JobLedger α) : Transaction TicketDb α := fun db =>
  (t db.jobs).map fun p => (p.1, { db with jobs := p.2 })

structure ChildOutcome where
  parentOperationId : Str
  parentManifestHash : Str
  childOperationId : Str
  childIndex : Int
  effectState : Str
  reasonCode : Option Str
  receiptHash : Option Str

def ChildOutcome.fields (o : ChildOutcome) : List (Str × Json) :=
  [("schema_version", .int 1), ("parent_operation_id", .str o.parentOperationId),
    ("parent_manifest_hash", .str o.parentManifestHash),
    ("child_operation_id", .str o.childOperationId), ("child_index", .int o.childIndex),
    ("effect_state", .str o.effectState), ("reason_code", optionalText o.reasonCode),
    ("receipt_hash", optionalText o.receiptHash)]

def ChildOutcome.toJson (o : ChildOutcome) : Json := .obj o.fields

structure OutcomeArgs where
  ticketId : Str
  requestId : Str
  outcome : ChildOutcome
  receipt : Option OperationReceipt
  expectationId : Str
  receiptEntryId : Str
  entryId : Str
  jobId : Str

def receiptKey (childOperationId : Str) : Str :=
  text "ticket-effect-receipt:v1:" ++ childOperationId

def outcomeKey (childOperationId : Str) : Str :=
  text "ticket-child-outcome:v1:" ++ childOperationId

def childWatchdogKey (childOperationId : Str) : Str :=
  text "ticket-child-watchdog:v1:" ++ childOperationId

def OutcomeArgs.watchdog (a : OutcomeArgs) : EnqueueArgs where
  jobId := a.jobId
  jobType := "ticket_watchdog"
  aggregateId := a.ticketId
  idempotencyKey := childWatchdogKey a.outcome.childOperationId
  payload := [("ticket_id", .str a.ticketId),
    ("child_operation_id", .str a.outcome.childOperationId)]
  maxAttempts := 1

/-- The effect of a child that has one. -/
def recordChildEffect (a : OutcomeArgs) (now : Instant) (db : TicketDb) :
    Except PyError TicketDb :=
  let child := a.outcome.childOperationId
  match a.receipt with
  | none => .ok db
  | some receipt => (recordEffect a.ticketId a.requestId child a.expectationId a.receiptEntryId
      (receiptKey child) receipt now db).map Prod.snd

/-- `record_child_outcome_atomic`. -/
def recordChildOutcomeAtomic (a : OutcomeArgs) (now : Instant) :
    Transaction TicketDb TicketEntry := fun db => do
  let child := a.outcome.childOperationId
  let db₁ ← recordChildEffect a now db
  let (entry, db₂) ← appendEntryCursor {
    entryId := a.entryId, ticketId := a.ticketId, requestId := a.requestId
    entryType := .childOutcome, actorType := "domain", structuredPayload := a.outcome.toJson
    dedupeKey := outcomeKey child
    conflictCode := some "child_outcome_idempotency_conflict" } now db₁
  let (_, db₃) ← onJobs (enqueueJob a.watchdog now) db₂
  .ok (entry, db₃)

structure ScheduleArgs where
  ticketId : Str
  sourceActionRevision : Str
  delaySeconds : Seconds
  maxAttempts : Int
  completedAt : Option Instant := none
  jobId : Str

def reviewKey (ticketId sourceActionRevision : Str) : Str :=
  text "ticket-review:" ++ ticketId ++ text ":" ++ sourceActionRevision

def ScheduleArgs.job (a : ScheduleArgs) (due : Instant) : EnqueueArgs where
  jobId := a.jobId
  jobType := "ticket_review"
  aggregateId := a.ticketId
  idempotencyKey := reviewKey a.ticketId a.sourceActionRevision
  payload := [("ticket_id", .str a.ticketId),
    ("source_action_revision", .str a.sourceActionRevision)]
  availableAt := some (isoUtc due)
  maxAttempts := a.maxAttempts

def verificationScheduled (completed due sourceActionRevision : Str) : TicketAssignment where
  apply t := { t with
    status := .verificationPending, version := t.version + 1, lastMaterialActivityAt := completed
    completedAt := some completed, reviewDueAt := some due
    sourceActionRevision := some sourceActionRevision }

/-- `schedule_verification`, which writes the status without a look at the one before. -/
def scheduleVerification (a : ScheduleArgs) (now : Instant) : Transaction TicketDb DurableJob :=
  fun db => do
    let completed := a.completedAt.getD now
    let due ← completed.add (a.delaySeconds.atLeast 0)
    let assignment :=
      verificationScheduled (isoUtc completed) (isoUtc due) a.sourceActionRevision
    onJobs (enqueueJob (a.job due) now) (db.updateTicket a.ticketId assignment)

end Jobs

section Reviews

structure ReviewStart where
  reviewRunId : Str
  ticketId : Str
  sourceActionRevision : Str
  attemptNumber : Int
  promptVersion : Str

def ReviewStart.row (a : ReviewStart) (now : Instant) : ReviewRun where
  reviewRunId := a.reviewRunId
  ticketId := a.ticketId
  sourceActionRevision := a.sourceActionRevision
  attemptNumber := a.attemptNumber
  status := .running
  deterministicVerdict := none
  modelVerdict := none
  modelName := none
  promptVersion := a.promptVersion
  contextPackHash := none
  sourceEvidence := .obj []
  sourceEvidenceHash := none
  discrepancy := []
  proposedRepair := none
  startedAt := isoUtc now
  completedAt := none
  errorCode := none

/-- The run of this attempt at this revision of the ticket. -/
def ReviewStart.sameAttempt (a : ReviewStart) (run : ReviewRun) : Bool :=
  run.ticketId = a.ticketId && run.sourceActionRevision = a.sourceActionRevision &&
    run.attemptNumber = a.attemptNumber

/-- `start_review_run`: `INSERT OR IGNORE`, then the row that is there. -/
def startReviewRun (a : ReviewStart) (now : Instant) : Transaction TicketDb ReviewRun :=
  fun db =>
    match db.reviews.rows.find? a.sameAttempt with
    | some run => .ok (run, db)
    | none =>
      match db.reviews.insert? (a.row now) with
      | none => .error .typeError
      | some reviews => do
        require (db.tickets.find? a.ticketId).isSome .integrityError
        .ok (a.row now, { db with reviews })

structure ReviewEnd where
  reviewRunId : Str
  status : ReviewRunStatus
  deterministicVerdict : Option Str := none
  modelVerdict : Option Str := none
  modelName : Option Str := none
  contextPackHash : Option Str := none
  sourceEvidence : Json := .obj []
  sourceEvidenceHash : Option Str := none
  discrepancy : List Json := []
  proposedRepair : Option Json := none
  errorCode : Option Str := none

def reviewEnded (a : ReviewEnd) (now : Instant) : Table.Assignment ReviewRun.reviewRunId where
  apply run := { run with
    status := a.status, deterministicVerdict := a.deterministicVerdict
    modelVerdict := a.modelVerdict, modelName := a.modelName
    contextPackHash := a.contextPackHash, sourceEvidence := a.sourceEvidence
    sourceEvidenceHash := a.sourceEvidenceHash, discrepancy := a.discrepancy
    proposedRepair := a.proposedRepair, completedAt := some (isoUtc now)
    errorCode := a.errorCode }

/-- `complete_review_run`. -/
def completeReviewRun (a : ReviewEnd) (now : Instant) : Transaction TicketDb (Option ReviewRun) :=
  fun db => do
    let _ ← dump true a.sourceEvidence
    let _ ← dump true (.arr a.discrepancy)
    let _ ← dump true (a.proposedRepair.getD .null)
    let reviews := db.reviews.update (fun run => run.reviewRunId = a.reviewRunId)
      (reviewEnded a now)
    .ok (reviews.find? a.reviewRunId, { db with reviews })

/-- `find_later_tickets`. -/
def TicketDb.findLaterTickets (db : TicketDb) (resourceKey completedAfter exclude : Str) :
    List Ticket :=
  if resourceKey = [] then []
  else db.tickets.rows.filter fun t =>
    t.resourceKey = some resourceKey && t.ticketId ≠ exclude &&
      t.completedAt.any (completedAfter < ·) &&
      [TicketStatus.verificationPending, .verifying, .verified, .superseded].contains t.status

end Reviews

end HardyAI.Tickets
