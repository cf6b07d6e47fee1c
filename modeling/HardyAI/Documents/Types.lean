import HardyAI.Foundation.Json
import HardyAI.Foundation.Table
import HardyAI.Foundation.Transaction
import Mathlib.Order.Basic

/-! The tables of the document store. An intake is kept in the row of its document:
the two are inserted together and neither is ever deleted. -/

open Foundation Foundation.Json

namespace HardyAI.Documents

section Enumerations

inductive DocumentState
  | awaitingEnqueue | queued | archiving | ready | failed
  deriving DecidableEq, Repr

inductive Sensitivity
  | normal | private_ | financial | identity | highlyRestricted
  deriving DecidableEq, Repr

def Sensitivity.value : Sensitivity → Str
  | .normal => "normal"
  | .private_ => "private"
  | .financial => "financial"
  | .identity => "identity"
  | .highlyRestricted => "highly_restricted"

/-- The order of `_risk_rank`. -/
def Sensitivity.rank : Sensitivity → Nat
  | .normal => 0
  | .private_ => 1
  | .financial => 2
  | .identity => 3
  | .highlyRestricted => 4

/-- `{Sensitivity.IDENTITY, Sensitivity.HIGHLY_RESTRICTED}`. -/
def Sensitivity.restricted (s : Sensitivity) : Bool := s = .identity || s = .highlyRestricted

theorem Sensitivity.restricted_iff_rank (s : Sensitivity) : s.restricted = true ↔ 3 ≤ s.rank := by
  cases s <;> simp [restricted, rank]

inductive ProcessingState
  | notRequested | queued | processing | needsReview | complete | processingIncomplete | failed
  | cancelled | protectedPending
  deriving DecidableEq, Repr

inductive ProcessingRoute
  | nativeDocling | conventionalOcr | structure_ | vlmFallback | manual
  deriving DecidableEq, Repr

def ProcessingRoute.value : ProcessingRoute → Str
  | .nativeDocling => "native_docling"
  | .conventionalOcr => "conventional_ocr"
  | .structure_ => "structure"
  | .vlmFallback => "vlm_fallback"
  | .manual => "manual"

inductive DocumentClass
  | bill | invoice | receipt | meetingNotes | generalNotes | businessCard | identityDocument
  | governmentDocument | contract | insuranceDocument | taxDocument | warranty | unknown
  deriving DecidableEq, Repr

def DocumentClass.value : DocumentClass → Str
  | .bill => "bill"
  | .invoice => "invoice"
  | .receipt => "receipt"
  | .meetingNotes => "meeting_notes"
  | .generalNotes => "general_notes"
  | .businessCard => "business_card"
  | .identityDocument => "identity_document"
  | .governmentDocument => "government_document"
  | .contract => "contract"
  | .insuranceDocument => "insurance_document"
  | .taxDocument => "tax_document"
  | .warranty => "warranty"
  | .unknown => "unknown"

inductive ClassificationState
  | unclassified | machineSelected | humanSelected | protectedPending
  deriving DecidableEq, Repr

inductive SourceAvailability
  | available | unavailable
  deriving DecidableEq, Repr

inductive OriginState
  | present | missing | duplicateConflict
  deriving DecidableEq, Repr

end Enumerations

section Rows

/-- A row of `document_intakes`. -/
structure Intake where
  intakeId : Str
  originalFilename : Str
  spoolKey : Option Str
  ingestRoute : Str
  archiveTaskRef : Option Str
  durableJobId : Option Str
  failureCode : Option Str
  createdAt : Str
  updatedAt : Str
  deriving DecidableEq

/-- A row of `documents`. -/
structure DocumentRow where
  documentId : Str
  ownerId : Str
  title : Str
  sha256 : Str
  sizeBytes : Int
  mediaType : Str
  state : DocumentState
  sourceRef : Option Str
  sensitivity : Sensitivity
  processingState : ProcessingState
  activeSourceVersionId : Option Str
  activeRunId : Option Str
  searchVisible : Bool
  sourceAvailability : SourceAvailability
  selectedDocumentClass : Option DocumentClass
  classificationState : ClassificationState
  archiveTextVisible : Bool
  createdAt : Str
  updatedAt : Str
  intake : Intake
  deriving DecidableEq

/-- A row of `document_archive_sources`. -/
structure ArchiveSource where
  sourceRef : Str
  documentId : Str
  provider : Str
  externalId : Str
  verifiedSha256 : Str
  verifiedAt : Str
  deriving DecidableEq

/-- A row of `document_source_versions`. -/
structure SourceVersion where
  sourceVersionId : Str
  documentId : Str
  sourceRef : Str
  originalSha256 : Str
  mediaType : Str
  sizeBytes : Int
  originalFilename : Str
  ingestRoute : Str
  externalVersion : Option Str
  receivedAt : Str
  archivedAt : Option Str
  createdAt : Str
  deriving DecidableEq

/-- A row of `document_provider_snapshots`. -/
structure ProviderSnapshot where
  provider : Str
  externalId : Str
  externalVersion : Option Str
  documentId : Option Str
  observedHash : Str
  observedState : OriginState
  lastSeenAt : Str
  deriving DecidableEq

def ProviderSnapshot.origin (s : ProviderSnapshot) : Str × Str := (s.provider, s.externalId)

/-- A row of `document_processing_runs`. -/
structure ProcessingRun where
  runId : Str
  documentId : Str
  sourceVersionId : Str
  status : ProcessingState
  route : ProcessingRoute
  parserName : Str
  parserVersion : Str
  parserImageDigest : Option Str
  configurationSha256 : Str
  artifactSchemaVersion : Str
  resourceLane : Str
  fallbackFromRunId : Option Str
  requestKey : Str
  providerOperationRef : Option Str
  fencingToken : Int
  errorCode : Option Str
  startedAt : Option Str
  completedAt : Option Str
  createdAt : Str
  updatedAt : Str
  deriving DecidableEq

/-- A row of `document_stage_commits`. -/
structure StageCommit where
  stageCommitId : Str
  runId : Str
  stage : Str
  stageVersion : Str
  fencingToken : Int
  resultHash : Str
  committedAt : Str
  deriving DecidableEq

/-- A row of `document_pages`. -/
structure Page where
  runId : Str
  pageNumber : Int
  coordinateSpace : Str
  rotationDegrees : Int
  quality : Json
  deriving DecidableEq

def Page.place (p : Page) : Str × Int := (p.runId, p.pageNumber)

/-- A row of `document_blocks`. -/
structure Block where
  runId : Str
  blockId : Str
  documentId : Str
  sourceVersionId : Str
  pageNumber : Int
  blockKind : Str
  readingOrder : Int
  literalText : Str
  bbox : Option Json
  charSpan : Option Json
  providerRef : Option Str
  sensitivity : Sensitivity
  language : Option Str
  deriving DecidableEq

def Block.place (b : Block) : Str × Str := (b.runId, b.blockId)

/-- A row of `document_tables`. -/
structure DocumentTable where
  runId : Str
  tableId : Str
  documentId : Str
  sourceVersionId : Str
  pageNumber : Int
  readingOrder : Int
  rowCount : Int
  columnCount : Int
  bbox : Option Json
  providerRef : Option Str
  sensitivity : Sensitivity
  deriving DecidableEq

def DocumentTable.place (t : DocumentTable) : Str × Str := (t.runId, t.tableId)

/-- A row of `document_table_cells`. -/
structure TableCell where
  runId : Str
  tableId : Str
  cellId : Str
  rowIndex : Int
  columnIndex : Int
  rowSpan : Int
  columnSpan : Int
  literalText : Str
  bbox : Option Json
  providerRef : Option Str
  deriving DecidableEq

def TableCell.place (c : TableCell) : Str × Str × Str := (c.runId, c.tableId, c.cellId)

/-- A row of `document_stage_messages`. -/
structure StageMessage where
  messageId : Str
  runId : Str
  stage : Str
  severity : Str
  code : Str
  occurredAt : Str
  deriving DecidableEq

inductive DecisionSource
  | machine | humanCorrected | humanConfirmed
  deriving DecidableEq, Repr

inductive LabelState
  | machineObserved | conflicted | superseded | revoked
  deriving DecidableEq, Repr

/-- A row of `document_classifications`. -/
structure Classification where
  classificationId : Str
  documentId : Str
  sourceVersionId : Str
  runId : Str
  taxonomyVersion : Str
  label : DocumentClass
  sensitivity : Sensitivity
  classifierName : Str
  classifierVersion : Str
  evidence : Json
  decisionSource : DecisionSource
  state : LabelState
  selected : Bool
  itemHash : Str
  createdAt : Str
  deriving DecidableEq

inductive ObservationState
  | machineObserved | humanCorrected | humanConfirmed | conflicted | superseded
  deriving DecidableEq, Repr

/-- A row of `document_field_observations`. -/
structure FieldObservation where
  observationId : Str
  documentId : Str
  sourceVersionId : Str
  runId : Str
  schemaName : Str
  schemaVersion : Str
  fieldName : Str
  value : Json
  literalText : Str
  sensitivity : Sensitivity
  evidence : Json
  providerName : Str
  providerVersion : Str
  observationState : ObservationState
  itemHash : Str
  createdAt : Str
  deriving DecidableEq

inductive DecisionKind
  | correct | confirm | reject | revoke
  deriving DecidableEq, Repr

/-- A row of `document_field_decisions`. -/
structure FieldDecision where
  fieldDecisionId : Str
  documentId : Str
  sourceVersionId : Str
  fieldName : Str
  reviewDecisionId : Str
  operationId : Option Str
  selectedObservationId : Option Str
  appliedValue : Option Json
  decisionKind : DecisionKind
  createdAt : Str
  deriving DecidableEq

inductive ProposalState
  | pendingReview | applied
  deriving DecidableEq, Repr

/-- A row of `document_metadata_proposals`. -/
structure MetadataProposal where
  proposalId : Str
  documentId : Str
  sourceVersionId : Str
  fieldName : Str
  proposedValue : Json
  valueHash : Str
  sensitivity : Sensitivity
  reviewId : Option Str
  state : ProposalState
  createdAt : Str
  updatedAt : Str
  deriving DecidableEq

inductive SyncState
  | applying | applied | failed | conflicted
  deriving DecidableEq, Repr

/-- A row of `document_metadata_sync`. -/
structure MetadataSync where
  syncId : Str
  proposalId : Str
  provider : Str
  externalId : Str
  sourceVersionId : Str
  operationId : Str
  desiredHash : Str
  observedHash : Option Str
  providerVersion : Str
  state : SyncState
  errorCode : Option Str
  createdAt : Str
  updatedAt : Str
  deriving DecidableEq

/-- A row of `document_tool_operations`. -/
structure ToolOperation where
  operationId : Str
  toolId : Str
  argumentsHash : Str
  completed : Bool
  targetRef : Str
  resultRef : Option Str
  createdAt : Str
  completedAt : Option Str
  deriving DecidableEq

end Rows

structure DocumentDb where
  documents : Table DocumentRow.documentId
  sources : Table ArchiveSource.sourceRef
  versions : Table SourceVersion.sourceVersionId
  snapshots : Table ProviderSnapshot.origin
  runs : Table ProcessingRun.runId
  stageCommits : Table StageCommit.stageCommitId
  pages : Table Page.place
  blocks : Table Block.place
  tables : Table DocumentTable.place
  cells : Table TableCell.place
  stageMessages : Table StageMessage.messageId
  classifications : Table Classification.classificationId
  observations : Table FieldObservation.observationId
  decisions : Table FieldDecision.fieldDecisionId
  proposals : Table MetadataProposal.proposalId
  syncs : Table MetadataSync.syncId
  toolOperations : Table ToolOperation.operationId

instance : EmptyCollection DocumentDb := 
  ⟨⟨∅, ∅, ∅, ∅, ∅, ∅, ∅, ∅, ∅, ∅, ∅, ∅, ∅, ∅, ∅, ∅, ∅⟩⟩

/-- `ORDER BY created_at DESC LIMIT 1`. -/
def newest {Row : Type} (createdAt : Row → Str) (rows : List Row) : Option Row :=
  rows.foldl (fun best r => match best with
    | none => some r
    | some b => if createdAt b < createdAt r then some r else some b) none

/-- `raise DocumentStorageError(code)`. -/
def storageError (code : String) : PyError := .runtimeError code

def DocumentDb.updateDocument (db : DocumentDb) (documentId : Str)
    (f : Table.Assignment DocumentRow.documentId) : DocumentDb :=
  { db with documents := db.documents.update (fun d => d.documentId = documentId) f }

end HardyAI.Documents
