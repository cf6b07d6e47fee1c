import HardyAI.Foundation.Json
import HardyAI.Foundation.Sha256
import HardyAI.Jobs.Types

/-! The rows of the action-ticket ledger. JSON columns hold the value that is read back, and
time columns the text of `iso_utc`. -/

open Foundation Foundation.Json HardyAI.Jobs

namespace HardyAI.Tickets

section Enumerations

inductive TicketStatus
  | captured | waitingClarification | executing | verificationPending | verifying | verified
  | superseded | remediationQueued | unverifiable | reconciliationRequired | escalated | cancelled
  deriving DecidableEq, Repr

def TicketStatus.value : TicketStatus → String
  | .captured => "captured"
  | .waitingClarification => "waiting_clarification"
  | .executing => "executing"
  | .verificationPending => "verification_pending"
  | .verifying => "verifying"
  | .verified => "verified"
  | .superseded => "superseded"
  | .remediationQueued => "remediation_queued"
  | .unverifiable => "unverifiable"
  | .reconciliationRequired => "reconciliation_required"
  | .escalated => "escalated"
  | .cancelled => "cancelled"

inductive TicketKind
  | original | remediation
  deriving DecidableEq

inductive TicketEntryType
  | userRequest | userClarification | assistantClarification | assistantResponse | microDecision
  | mainRepairDecision | routingDecision | mainPlan | executionManifest | executionStarted
  | operationReceipt | childOutcome | executionCompleted | stateTransition | sourceObservation
  | reviewResult | remediationCreated | planeSyncResult
  deriving DecidableEq

def TicketEntryType.value : TicketEntryType → String
  | .userRequest => "user_request"
  | .userClarification => "user_clarification"
  | .assistantClarification => "assistant_clarification"
  | .assistantResponse => "assistant_response"
  | .microDecision => "micro_decision"
  | .mainRepairDecision => "main_repair_decision"
  | .routingDecision => "routing_decision"
  | .mainPlan => "main_plan"
  | .executionManifest => "execution_manifest"
  | .executionStarted => "execution_started"
  | .operationReceipt => "operation_receipt"
  | .childOutcome => "child_outcome"
  | .executionCompleted => "execution_completed"
  | .stateTransition => "state_transition"
  | .sourceObservation => "source_observation"
  | .reviewResult => "review_result"
  | .remediationCreated => "remediation_created"
  | .planeSyncResult => "plane_sync_result"

inductive ReviewVerdict
  | correct | incorrect | superseded | inconclusive
  deriving DecidableEq

def ReviewVerdict.value : ReviewVerdict → String
  | .correct => "correct"
  | .incorrect => "incorrect"
  | .superseded => "superseded"
  | .inconclusive => "inconclusive"

end Enumerations

section Rows

/-- A row of `work_tickets`. -/
structure Ticket where
  ticketId : Str
  rootTicketId : Str
  parentTicketId : Option Str
  ticketKind : TicketKind
  remediationGeneration : Int
  status : TicketStatus
  version : Int
  originRequestId : Str
  sessionId : Str
  userId : Str
  agentId : Str
  source : Str
  intent : Str
  skillId : Option Str
  route : Str
  resourceKey : Option Str
  title : Str
  createdAt : Str
  lastMaterialActivityAt : Str
  completedAt : Option Str
  reviewDueAt : Option Str
  sourceActionRevision : Option Str
  expectedEffectHash : Option Str
  planeWorkItemId : Option Str
  planeSyncStatus : Str
  terminalReason : Option Str
  deriving DecidableEq

/-- A row of `ticket_entries`. -/
structure TicketEntry where
  entryId : Str
  ticketId : Str
  sequenceNumber : Nat
  requestId : Str
  entryType : TicketEntryType
  actorType : Str
  actorId : Option Str
  createdAt : Str
  verbatimText : Option Str
  structuredPayload : Json
  contentHash : Str
  dedupeKey : Str
  deriving DecidableEq

/-- `OperationReceipt.to_dict`. -/
structure OperationReceipt where
  operationId : Str
  idempotencyKey : Str
  capability : Str
  action : Str
  resourceKey : Str
  status : Str
  expectedEffect : List (Str × Json)
  validatorName : Str
  validatorVersion : Str
  resourceLocator : List (Str × Json)
  providerResourceId : Option Str
  providerRevision : Option Str
  committedAt : Option Str
  executionObservation : List (Str × Json)
  result : List (Str × Json)
  deriving DecidableEq

/-- A row of `operation_receipts`, whose `outcome` is the status of the receipt. -/
structure ReceiptRow extends OperationReceipt where
  ticketId : Str
  deriving DecidableEq

def ReceiptRow.operation (r : ReceiptRow) : Str := r.operationId

/-- A row of `ticket_expectations`. -/
structure Expectation where
  expectationId : Str
  ticketId : Str
  operationId : Str
  capability : Str
  validatorName : Str
  validatorVersion : Str
  resourceLocator : List (Str × Json)
  expectedState : List (Str × Json)
  expectedStateHash : Str
  sourceRevisionAtExecution : Option Str
  createdAt : Str
  deriving DecidableEq

inductive ReviewRunStatus
  | running | completed | failed
  deriving DecidableEq

/-- A row of `ticket_review_runs`. -/
structure ReviewRun where
  reviewRunId : Str
  ticketId : Str
  sourceActionRevision : Str
  attemptNumber : Int
  status : ReviewRunStatus
  deterministicVerdict : Option Str
  modelVerdict : Option Str
  modelName : Option Str
  promptVersion : Str
  contextPackHash : Option Str
  sourceEvidence : Json
  sourceEvidenceHash : Option Str
  discrepancy : List Json
  proposedRepair : Option Json
  startedAt : Str
  completedAt : Option Str
  errorCode : Option Str
  deriving DecidableEq

/-- The database of the ticket repository, with the job ledger it shares. -/
structure TicketDb where
  tickets : Table Ticket.ticketId
  entries : Table TicketEntry.dedupeKey
  receipts : Table ReceiptRow.operation
  expectations : Table Expectation.operationId
  reviews : Table ReviewRun.reviewRunId
  jobs : JobLedger

def TicketDb.empty : TicketDb := ⟨∅, ∅, ∅, ∅, ∅, .empty⟩

end Rows

section Reviews

/-- `SourceObservation`: what a verifier has seen of a resource. -/
structure SourceObservation where
  verifierName : Str
  verifierVersion : Str
  resourceKey : Str
  existing : Option Bool
  normalizedState : List (Str × Json)
  deterministicVerdict : ReviewVerdict
  observedAt : Str
  providerRevision : Option Str := none
  evidenceId : Str
  laterChangeDetected : Bool := false
  limitations : List Str := []
  errorCode : Option Str := none
  deriving DecidableEq

structure ReviewRepair where
  capability : Str
  entities : List (Str × Json)
  reason : Str
  deriving DecidableEq

/-- `ReviewDecision`; the confidence is a float. -/
structure ReviewDecision where
  verdict : ReviewVerdict
  confidence : BitVec 64
  summary : Str
  evidenceRefs : List Str
  mismatches : List (List (Str × Json)) := []
  repair : Option ReviewRepair := none
  deriving DecidableEq

def optionalText : Option Str → Json
  | none => .null
  | some s => .str s

def SourceObservation.toJson (o : SourceObservation) : Json :=
  .obj [("verifier_name", .str o.verifierName), ("verifier_version", .str o.verifierVersion),
    ("resource_key", .str o.resourceKey), ("exists", (o.existing.map Json.bool).getD .null),
    ("normalized_state", .obj o.normalizedState),
    ("deterministic_verdict", .str o.deterministicVerdict.value),
    ("observed_at", .str o.observedAt), ("provider_revision", optionalText o.providerRevision),
    ("evidence_id", .str o.evidenceId), ("later_change_detected", .bool o.laterChangeDetected),
    ("limitations", .arr (o.limitations.map Json.str)), ("error_code", optionalText o.errorCode)]

def ReviewRepair.toJson (r : ReviewRepair) : Json :=
  .obj [("capability", .str r.capability), ("entities", .obj r.entities), ("reason", .str r.reason)]

def ReviewDecision.toJson (d : ReviewDecision) : Json :=
  .obj [("verdict", .str d.verdict.value), ("confidence", .float d.confidence),
    ("summary", .str d.summary), ("evidence_refs", .arr (d.evidenceRefs.map Json.str)),
    ("mismatches", .arr (d.mismatches.map Json.obj)),
    ("repair", (d.repair.map ReviewRepair.toJson).getD .null)]

end Reviews

section Hashes

variable [PythonText]

/-- The text that is hashed: a text itself, and any other value's dump. -/
def hashedText : Json → Except PyError Str
  | .str s => .ok s
  | value => dump true value

/-- `content_hash`. -/
def contentHash (value : Json) : Except PyError Str := do
  let payload ← hashedText value
  let bytes ← utf8 payload
  .ok (Sha256.hexdigest bytes)

/-- Two values that are stored as the same text. -/
def sameText (a b : Json) : Bool := a.render true = b.render true

end Hashes

end HardyAI.Tickets
