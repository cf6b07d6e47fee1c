import HardyAI.Documents.ProcessingRuns
import HardyAI.Foundation.Sha256

/-! What enrichment writes about a document: the labels of a run, the protection of
restricted content and the visibility of the archived text. -/

open Foundation Foundation.Json

namespace HardyAI.Documents

section Labels

variable [PythonText]

/-- `sha256` of the canonical dump. -/
def payloadHash (payload : Json) : Except PyError Str := do
  let encoded ← dump true payload
  let bytes ← utf8 encoded
  .ok (Sha256.hexdigest bytes)

/-- The confidence is the rounded one. -/
structure ClassificationCandidate where
  label : DocumentClass
  sensitivity : Sensitivity
  confidence : Json
  evidence : Json
  classificationId : Str

structure ClassificationRequest where
  documentId : Str
  sourceVersionId : Str
  runId : Str
  taxonomyVersion : Str
  classifierName : Str
  classifierVersion : Str
  candidates : List ClassificationCandidate
  selectedLabel : DocumentClass
  selectedSensitivity : Sensitivity
  createdAt : Str

def ClassificationRequest.itemHash (r : ClassificationRequest) (c : ClassificationCandidate) :
    Except PyError Str :=
  payloadHash (.obj [
    ("taxonomy_version", .str r.taxonomyVersion),
    ("label", .str c.label.value),
    ("sensitivity", .str c.sensitivity.value),
    ("confidence", c.confidence),
    ("evidence", c.evidence),
    ("classifier_name", .str r.classifierName),
    ("classifier_version", .str r.classifierVersion)])

omit [PythonText] in
/-- The label that a human gave to the version. -/
def DocumentDb.humanLabel (db : DocumentDb) (documentId sourceVersionId : Str) :
    Option DocumentClass :=
  (newest Classification.createdAt (db.classifications.rows.filter fun c =>
    c.documentId = documentId && c.sourceVersionId = sourceVersionId &&
      (c.decisionSource = .humanCorrected || c.decisionSource = .humanConfirmed) &&
      c.state ≠ .superseded && c.state ≠ .revoked)).map Classification.label

omit [PythonText] in
def ClassificationRequest.row (r : ClassificationRequest) (human : Option DocumentClass)
    (c : ClassificationCandidate) (itemHash : Str) : Classification where
  classificationId := c.classificationId
  documentId := r.documentId
  sourceVersionId := r.sourceVersionId
  runId := r.runId
  taxonomyVersion := r.taxonomyVersion
  label := c.label
  sensitivity := c.sensitivity
  classifierName := r.classifierName.take 120
  classifierVersion := r.classifierVersion.take 80
  evidence := c.evidence
  decisionSource := .machine
  state := if human.any (· ≠ c.label) then .conflicted else .machineObserved
  selected := c.label = human.getD r.selectedLabel
  itemHash := itemHash
  createdAt := r.createdAt

/-- `UNIQUE(run_id, label, classifier_name, classifier_version, item_hash)`. -/
def Classification.sameItem (c old : Classification) : Bool :=
  old.runId = c.runId && old.label = c.label && old.classifierName = c.classifierName &&
    old.classifierVersion = c.classifierVersion && old.itemHash = c.itemHash

def DocumentDb.insertClassification (db : DocumentDb) (c : Classification) :
    Except PyError DocumentDb :=
  if db.classifications.rows.any c.sameItem then .ok db
  else
    match db.classifications.insert? c with
    | none => .error .integrityError
    | some classifications => do
      require (db.knows c.documentId c.sourceVersionId) .integrityError
      require (db.runs.find? c.runId).isSome .integrityError
      .ok { db with classifications := classifications }

/-- The row that is read back is looked for under the names as they were given. -/
def ClassificationRequest.insertCandidate (r : ClassificationRequest) (human : Option DocumentClass)
    (written : List Classification × DocumentDb) (c : ClassificationCandidate) :
    Except PyError (List Classification × DocumentDb) := do
  let itemHash ← r.itemHash c
  let db ← written.2.insertClassification (r.row human c itemHash)
  .ok (written.1 ++ (db.classifications.rows.find? fun old => old.runId = r.runId &&
    old.label = c.label && old.classifierName = r.classifierName &&
    old.classifierVersion = r.classifierVersion && old.itemHash = itemHash).toList, db)

omit [PythonText] in
def ClassificationRequest.classify (r : ClassificationRequest) (human : Option DocumentClass) :
    Table.Assignment DocumentRow.documentId where
  apply d := { d with
    selectedDocumentClass := some (human.getD r.selectedLabel)
    classificationState := if human.isSome then .humanSelected else .machineSelected
    sensitivity := r.selectedSensitivity
    searchVisible := !r.selectedSensitivity.restricted
    updatedAt := r.createdAt }

omit [PythonText] in
def ClassificationRequest.targets (r : ClassificationRequest) (d : DocumentRow) : Bool :=
  d.documentId = r.documentId && d.activeSourceVersionId = some r.sourceVersionId

def appendClassification (r : ClassificationRequest) :
    Transaction DocumentDb (List Classification) := fun db => do
  require (!r.candidates.isEmpty) (.valueError "classification requires at least one candidate")
  let human := db.humanLabel r.documentId r.sourceVersionId
  let written ← r.candidates.foldlM (r.insertCandidate human) ([], db)
  .ok (written.1, { written.2 with
    documents := written.2.documents.update r.targets (r.classify human) })

end Labels

section Protection

structure ProtectRequest where
  documentId : Str
  runId : Str
  sensitivity : Sensitivity
  reasonCode : Str
  messageId : Str
  observedAt : Str

/-- A sensitivity that protects. -/
def ProtectRequest.target (r : ProtectRequest) : Sensitivity :=
  if r.sensitivity.restricted then r.sensitivity else .highlyRestricted

theorem ProtectRequest.target_restricted (r : ProtectRequest) : r.target.restricted = true := by
  unfold target
  split
  · next h => exact h
  · rfl

def ProtectRequest.withhold (r : ProtectRequest) : Table.Assignment DocumentRow.documentId where
  apply d := { d with
    sensitivity := r.target
    searchVisible := false
    archiveTextVisible := false
    classificationState := .protectedPending
    updatedAt := r.observedAt }

def markProtectedPending (r : ProtectRequest) : Transaction DocumentDb DocumentRow := fun db => do
  let withheld ← changeDocument r.documentId r.withhold db
  require (db.runs.find? r.runId).isSome .integrityError
  match db.stageMessages.insert? {
      messageId := r.messageId, runId := r.runId, stage := "classify_extract"
      severity := "warning", code := r.reasonCode.take 120, occurredAt := r.observedAt } with
  | none => .error .integrityError
  | some messages => .ok (withheld.1, { withheld.2 with stageMessages := messages })

def setArchiveTextVisibility (documentId : Str) (visible : Bool) (observedAt : Str) :
    Transaction DocumentDb DocumentRow :=
  changeDocument documentId
    { apply := fun d => { d with archiveTextVisible := visible, updatedAt := observedAt } }

end Protection

end HardyAI.Documents
