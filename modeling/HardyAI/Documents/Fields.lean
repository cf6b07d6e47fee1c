import HardyAI.Documents.Classification

/-! Extracted fields: what a run has observed, what a human has decided, and the value
that follows from both. -/

open Foundation Foundation.Json

namespace HardyAI.Documents

section Schemas

inductive ValueKind
  | text | date | decimal
  deriving DecidableEq, Repr

structure FieldSpec where
  name : Str
  sensitivity : Sensitivity
  valueKind : ValueKind
  deriving DecidableEq

def financialFields : List FieldSpec := [
  ⟨"subtype", .financial, .text⟩, ⟨"issuer", .private_, .text⟩,
  ⟨"payee_customer", .private_, .text⟩, ⟨"account_identifier_masked", .financial, .text⟩,
  ⟨"issue_date", .financial, .date⟩, ⟨"due_date", .financial, .date⟩,
  ⟨"currency", .financial, .text⟩, ⟨"amount_due", .financial, .decimal⟩,
  ⟨"amount_paid", .financial, .decimal⟩, ⟨"subtotal", .financial, .decimal⟩,
  ⟨"tax_amount", .financial, .decimal⟩, ⟨"total_amount", .financial, .decimal⟩,
  ⟨"service_period_start", .financial, .date⟩, ⟨"service_period_end", .financial, .date⟩,
  ⟨"usage_quantity", .financial, .decimal⟩, ⟨"usage_unit", .financial, .text⟩,
  ⟨"payment_status", .financial, .text⟩, ⟨"autopay_status", .financial, .text⟩]

/-- `schema_for(document_class).fields`. -/
def schemaFields : DocumentClass → List FieldSpec
  | .bill | .invoice | .receipt => financialFields
  | .meetingNotes | .generalNotes => [
    ⟨"note_kind", .private_, .text⟩, ⟨"title_candidate", .private_, .text⟩,
    ⟨"occurred_on", .private_, .date⟩, ⟨"action_item", .private_, .text⟩,
    ⟨"decision", .private_, .text⟩]
  | .businessCard => [
    ⟨"full_name", .private_, .text⟩, ⟨"organization", .private_, .text⟩,
    ⟨"job_title", .private_, .text⟩, ⟨"email", .private_, .text⟩,
    ⟨"phone", .private_, .text⟩, ⟨"website", .private_, .text⟩]
  | .contract => [
    ⟨"document_title", .private_, .text⟩, ⟨"party", .private_, .text⟩,
    ⟨"effective_date", .private_, .date⟩, ⟨"expiration_date", .private_, .date⟩,
    ⟨"notice_period", .private_, .text⟩]
  | .insuranceDocument => [
    ⟨"provider", .private_, .text⟩, ⟨"coverage_type", .private_, .text⟩,
    ⟨"policy_identifier_masked", .financial, .text⟩, ⟨"effective_date", .financial, .date⟩,
    ⟨"expiration_date", .financial, .date⟩]
  | .warranty => [
    ⟨"provider", .private_, .text⟩, ⟨"product", .private_, .text⟩,
    ⟨"purchase_date", .private_, .date⟩, ⟨"expiration_date", .private_, .date⟩]
  | .identityDocument | .governmentDocument | .taxDocument | .unknown => []

variable [PythonText]

def fieldSpecFor (documentClass : DocumentClass) (fieldName : Str) : Except PyError FieldSpec :=
  match (schemaFields documentClass).find? fun f =>
      f.name = PythonText.casefold (strip fieldName) with
  | some f => .ok f
  | none => .error (.valueError "document field is not allowed for this class")

end Schemas

section Observations

variable [PythonText]

structure ObservationItem where
  fieldName : Str
  value : Json
  literalText : Str
  sensitivity : Sensitivity
  evidence : Json
  observationId : Str

structure ObservationRequest where
  documentId : Str
  sourceVersionId : Str
  runId : Str
  schemaName : Str
  schemaVersion : Str
  extractorName : Str
  extractorVersion : Str
  observations : List ObservationItem
  createdAt : Str

def ObservationRequest.itemHash (r : ObservationRequest) (o : ObservationItem) : Except PyError Str :=
  payloadHash (.obj [
    ("schema_name", .str r.schemaName),
    ("schema_version", .str r.schemaVersion),
    ("field_name", .str o.fieldName),
    ("value", o.value),
    ("literal_text", .str o.literalText),
    ("sensitivity", .str o.sensitivity.value),
    ("evidence", o.evidence)])

omit [PythonText] in
/-- The decisions about a field of a version. -/
def FieldDecision.concerns (documentId sourceVersionId fieldName : Str) (d : FieldDecision) : Bool :=
  d.documentId = documentId && d.sourceVersionId = sourceVersionId && d.fieldName = fieldName

omit [PythonText] in
def FieldObservation.concerns (documentId sourceVersionId fieldName : Str)
    (o : FieldObservation) : Bool :=
  o.documentId = documentId && o.sourceVersionId = sourceVersionId && o.fieldName = fieldName

omit [PythonText] in
def ObservationRequest.row (r : ObservationRequest) (human : Bool) (o : ObservationItem)
    (itemHash : Str) : FieldObservation where
  observationId := o.observationId
  documentId := r.documentId
  sourceVersionId := r.sourceVersionId
  runId := r.runId
  schemaName := r.schemaName
  schemaVersion := r.schemaVersion
  fieldName := o.fieldName
  value := o.value
  literalText := o.literalText
  sensitivity := o.sensitivity
  evidence := o.evidence
  providerName := r.extractorName.take 120
  providerVersion := r.extractorVersion.take 80
  observationState := if human then .conflicted else .machineObserved
  itemHash := itemHash
  createdAt := r.createdAt

omit [PythonText] in
/-- `UNIQUE(run_id, schema_name, schema_version, field_name, item_hash)`. -/
def FieldObservation.sameItem (o old : FieldObservation) : Bool :=
  old.runId = o.runId && old.schemaName = o.schemaName && old.schemaVersion = o.schemaVersion &&
    old.fieldName = o.fieldName && old.itemHash = o.itemHash

omit [PythonText] in
def DocumentDb.insertObservation (db : DocumentDb) (o : FieldObservation) :
    Except PyError DocumentDb :=
  if db.observations.rows.any o.sameItem then .ok db
  else
    match db.observations.insert? o with
    | none => .error .integrityError
    | some observations => do
      require (db.knows o.documentId o.sourceVersionId) .integrityError
      require (db.runs.find? o.runId).isSome .integrityError
      .ok { db with observations := observations }

def ObservationRequest.insertItem (r : ObservationRequest)
    (written : List FieldObservation × DocumentDb) (o : ObservationItem) :
    Except PyError (List FieldObservation × DocumentDb) := do
  let itemHash ← r.itemHash o
  let human := written.2.decisions.rows.any fun d =>
    d.concerns r.documentId r.sourceVersionId o.fieldName &&
      (d.decisionKind = .correct || d.decisionKind = .confirm)
  let row := r.row human o itemHash
  let db ← written.2.insertObservation row
  .ok (written.1 ++ (db.observations.rows.find? row.sameItem).toList, db)

def appendFieldObservations (r : ObservationRequest) :
    Transaction DocumentDb (List FieldObservation) := fun db =>
  r.observations.foldlM r.insertItem ([], db)

end Observations

section Decisions

/-- The patterns of restricted values, and the texts that `Decimal` reads. -/
class FieldText where
  /-- `contains_unmasked_restricted_value`. -/
  containsUnmaskedRestrictedValue : Str → Bool
  isDecimal : Str → Bool

/-- Texts without restricted values, in which decimals are written in digits. -/
@[reducible] def plainText : FieldText where
  containsUnmaskedRestrictedValue _ := false
  isDecimal s := s ≠ [] && s.all fun c => 0x30 ≤ c.val && c.val ≤ 0x39

variable [PythonText] [FieldText]

structure DecisionRequest where
  documentId : Str
  sourceVersionId : Str
  fieldName : Str
  reviewDecisionId : Str
  decisionKind : Str
  selectedObservationId : Option Str
  appliedValue : Option Json
  identity : ToolIdentity
  fieldDecisionId : Str
  observedAt : Str

omit [PythonText] [FieldText] in
def DecisionKind.ofText? (s : Str) : Option DecisionKind :=
  if s = text "correct" then some .correct
  else if s = text "confirm" then some .confirm
  else if s = text "reject" then some .reject
  else if s = text "revoke" then some .revoke
  else none

omit [FieldText] in
def DecisionRequest.kind? (r : DecisionRequest) : Option DecisionKind :=
  DecisionKind.ofText? (PythonText.casefold (strip r.decisionKind))

omit [FieldText] in
/-- The text of a value that is stored. -/
def encodedValue (value : Option Json) : Option Str :=
  (value.filter (· ≠ .null)).map (Json.render true)

/-- The checks before the transaction. -/
def DecisionRequest.check (r : DecisionRequest) : Except PyError Unit := do
  require r.kind?.isSome (.valueError "unsupported field decision")
  require (!(r.appliedValue.getD .null).hasLongInt) (.valueError "int_max_str_digits")
  require ((encodedValue r.appliedValue).all fun s => s.length ≤ 4096)
    (.valueError "field decision is too large")
  require ((encodedValue r.appliedValue).all fun s =>
    !FieldText.containsUnmaskedRestrictedValue s)
    (.valueError "field decision contains an exact restricted value")

omit [PythonText] [FieldText] in
def DecisionRequest.row (r : DecisionRequest) (kind : DecisionKind) : FieldDecision where
  fieldDecisionId := r.fieldDecisionId
  documentId := r.documentId
  sourceVersionId := r.sourceVersionId
  fieldName := r.fieldName.take 120
  reviewDecisionId := r.reviewDecisionId.take 160
  operationId := (r.identity.operationId.filter (· ≠ [])).map strip
  selectedObservationId := r.selectedObservationId
  appliedValue := r.appliedValue.filter (· ≠ .null)
  decisionKind := kind
  createdAt := r.observedAt

omit [PythonText] [FieldText] in
/-- The foreign keys of a decision. -/
def DocumentDb.decisionFits (db : DocumentDb) (d : FieldDecision) : Bool :=
  db.knows d.documentId d.sourceVersionId &&
    d.selectedObservationId.all fun id => (db.observations.find? id).isSome

omit [PythonText] [FieldText] in
/-- `ON CONFLICT(review_decision_id) DO NOTHING`. -/
def DocumentDb.insertDecision (db : DocumentDb) (d : FieldDecision) : Except PyError DocumentDb :=
  if db.decisions.rows.any fun old => old.reviewDecisionId = d.reviewDecisionId then .ok db
  else
    match db.decisions.insert? d with
    | none => .error .integrityError
    | some decisions => do
      require (db.decisionFits d) .integrityError
      .ok { db with decisions := decisions }

omit [FieldText] in
/-- The row is the one that the request asks for. -/
def DecisionRequest.asks (r : DecisionRequest) (kind : DecisionKind) (d : FieldDecision) : Bool :=
  d.documentId = r.documentId && d.sourceVersionId = r.sourceVersionId &&
    d.fieldName = r.fieldName.take 120 && d.decisionKind = kind &&
    d.selectedObservationId.getD [] = r.selectedObservationId.getD [] &&
    (encodedValue d.appliedValue).getD [] = (encodedValue r.appliedValue).getD []

omit [FieldText] in
/-- The transaction, with the decision that is found and whether it is a replay. -/
def DecisionRequest.record (r : DecisionRequest) (kind : DecisionKind) :
    Transaction DocumentDb (Option FieldDecision × Bool) := fun db => do
  let reserved ← reserveToolOperation r.identity r.documentId r.observedAt db
  match reserved.1 with
  | some replayRef =>
    match reserved.2.decisions.find? replayRef with
    | none => .error (.valueError "document_tool_operation_replay_target_missing")
    | some replay => .ok ((some replay, true), reserved.2)
  | none => do
    let inserted ← reserved.2.insertDecision (r.row kind)
    match inserted.decisions.rows.find? fun d => d.reviewDecisionId = r.reviewDecisionId with
    | none => .ok ((none, false), inserted)
    | some d => do
      let completed ← completeToolOperation r.identity d.fieldDecisionId r.observedAt inserted
      .ok ((some d, false), completed.2)

/-- The row is compared with the request after the transaction has committed. -/
def recordFieldDecision (r : DecisionRequest) (db : DocumentDb) :
    Except PyError (FieldDecision × Bool) × DocumentDb :=
  match r.check, r.kind? with
  | .error e, _ => (.error e, db)
  | .ok (), none => (.error (.valueError "unsupported field decision"), db)
  | .ok (), some kind =>
    match r.record kind db with
    | .error e => (.error e, db)
    | .ok ((none, _), db') => (.error (.runtimeError "field decision did not produce a row"), db')
    | .ok ((some d, true), db') => (.ok (d, true), db')
    | .ok ((some d, false), db') =>
      if r.asks kind d then (.ok (d, false), db')
      else (.error (.valueError "field_decision_payload_changed"), db')

end Decisions

section Confirmations

variable [PythonText]

omit [PythonText] in
/-- `str(value or default)`. -/
def valueOr (value : Option Str) (default : Str) : Str :=
  if value.getD [] = [] then default else value.getD []

def fieldReviewBindingHash (documentId sourceVersionId fieldName : Str)
    (observationId itemHash reviewDecisionId : Option Str) (effectiveValue : Json) :
    Except PyError Str := do
  let valueHash ← payloadHash effectiveValue
  payloadHash (.obj [
    ("document_id", .str documentId),
    ("source_version_id", .str sourceVersionId),
    ("field_name", .str (PythonText.casefold (strip fieldName))),
    ("observation_id", .str (valueOr observationId "absent")),
    ("observation_item_hash", .str (valueOr itemHash "absent")),
    ("review_decision_id", .str (valueOr reviewDecisionId "none")),
    ("effective_value_hash", .str valueHash)])

structure Confirmation where
  fieldName : Str
  observationId : Str
  reviewBindingHash : Str
  reviewDecisionId : Str
  fieldDecisionId : Str
  deriving DecidableEq

def Confirmation.normalize (c : Confirmation) : Confirmation where
  fieldName := PythonText.casefold (strip c.fieldName)
  observationId := strip c.observationId
  reviewBindingHash := PythonText.casefold (strip c.reviewBindingHash)
  reviewDecisionId := strip c.reviewDecisionId
  fieldDecisionId := c.fieldDecisionId

omit [PythonText] in
def Confirmation.complete (c : Confirmation) : Bool :=
  c.fieldName ≠ [] && c.observationId ≠ [] && c.reviewBindingHash.length = 64 &&
    c.reviewDecisionId ≠ []

structure ConfirmationRequest where
  documentId : Str
  sourceVersionId : Str
  confirmations : List Confirmation
  identity : ToolIdentity
  observedAt : Str

def ConfirmationRequest.normalized (r : ConfirmationRequest) : List Confirmation :=
  (r.confirmations.map Confirmation.normalize).insertionSort fun c c' => c.fieldName ≤ c'.fieldName

def ConfirmationRequest.check (r : ConfirmationRequest) : Except PyError Unit := do
  require (r.identity.tool = text "documents.confirm_fields")
    (.valueError "document_tool_operation_identity_invalid")
  require (r.identity.operation ≠ [] && r.identity.hash.length = 64)
    (.valueError "document_tool_operation_identity_invalid")
  require (!r.confirmations.isEmpty && r.confirmations.length ≤ 64)
    (.valueError "field_confirmation_batch_invalid")
  require (r.normalized.all Confirmation.complete &&
    (r.normalized.map Confirmation.fieldName).Nodup &&
    (r.normalized.map Confirmation.reviewDecisionId).Nodup)
    (.valueError "field_confirmation_batch_invalid")

def ConfirmationRequest.resultRef (r : ConfirmationRequest) : Except PyError Str := do
  let bytes ← utf8 (join "\n" (r.normalized.map Confirmation.fieldName))
  .ok (text "confirmation_v1:" ++ natText r.normalized.length ++ text ":" ++
    Sha256.hexdigest bytes)

omit [PythonText] in
def DocumentDb.newestObservation (db : DocumentDb) (documentId sourceVersionId fieldName : Str) :
    Option FieldObservation :=
  newest FieldObservation.createdAt
    (db.observations.rows.filter (FieldObservation.concerns documentId sourceVersionId fieldName))

omit [PythonText] in
def DocumentDb.newestDecision (db : DocumentDb) (documentId sourceVersionId fieldName : Str) :
    Option FieldDecision :=
  newest FieldDecision.createdAt
    (db.decisions.rows.filter (FieldDecision.concerns documentId sourceVersionId fieldName))

/-- The observation is still the newest one, no human has decided, and the binding is of
what was observed. -/
def ConfirmationRequest.validate (r : ConfirmationRequest) (db : DocumentDb) (c : Confirmation) :
    Except PyError Unit :=
  match db.newestObservation r.documentId r.sourceVersionId c.fieldName with
  | none => .error (.valueError "field_observation_changed")
  | some o => do
    require (o.observationId = c.observationId) (.valueError "field_observation_changed")
    let previous := db.newestDecision r.documentId r.sourceVersionId c.fieldName
    require (previous.all fun d => d.decisionKind ≠ .confirm && d.decisionKind ≠ .correct)
      (.valueError "field_confirmation_target_changed")
    let binding ← fieldReviewBindingHash r.documentId r.sourceVersionId c.fieldName
      (some o.observationId) (some o.itemHash) (previous.map FieldDecision.reviewDecisionId) o.value
    require (binding = c.reviewBindingHash) (.valueError "field_review_binding_changed")

def ConfirmationRequest.row (r : ConfirmationRequest) (c : Confirmation) : FieldDecision where
  fieldDecisionId := c.fieldDecisionId
  documentId := r.documentId
  sourceVersionId := r.sourceVersionId
  fieldName := c.fieldName
  reviewDecisionId := c.reviewDecisionId
  operationId := some r.identity.operation
  selectedObservationId := some c.observationId
  appliedValue := none
  decisionKind := .confirm
  createdAt := r.observedAt

def ConfirmationRequest.insertRow (r : ConfirmationRequest) (db : DocumentDb) (c : Confirmation) :
    Except PyError DocumentDb := do
  require (db.decisionFits (r.row c)) (.valueError "field_confirmation_payload_changed")
  match db.decisions.insertApart? (fun old => old.reviewDecisionId = c.reviewDecisionId)
      (r.row c) with
  | none => .error (.valueError "field_confirmation_payload_changed")
  | some decisions => .ok { db with decisions := decisions }

/-- `SELECT … WHERE operation_id = ? ORDER BY field_name`. -/
def ConfirmationRequest.rows (r : ConfirmationRequest) (db : DocumentDb) : List FieldDecision :=
  (db.decisions.rows.filter fun d => d.operationId = some r.identity.operation).insertionSort
    fun d d' => d.fieldName ≤ d'.fieldName

def ConfirmationRequest.confirmed (r : ConfirmationRequest) (d : FieldDecision)
    (c : Confirmation) : Bool :=
  d.documentId = r.documentId && d.sourceVersionId = r.sourceVersionId &&
    d.fieldName = c.fieldName && d.reviewDecisionId = c.reviewDecisionId &&
    valueOr d.selectedObservationId "None" = c.observationId && d.decisionKind = .confirm

/-- The rows of the operation are the ones that the request asks for. -/
def ConfirmationRequest.verify (r : ConfirmationRequest) (db : DocumentDb) :
    Except PyError (List FieldDecision) := do
  require ((r.rows db).length = r.normalized.length)
    (.valueError "document_tool_operation_replay_target_missing")
  require (((r.rows db).zip r.normalized).all fun p => r.confirmed p.1 p.2)
    (.valueError "field_confirmation_payload_changed")
  .ok (r.rows db)

def ConfirmationRequest.write (r : ConfirmationRequest) (resultRef : Str) (db : DocumentDb) :
    Except PyError DocumentDb :=
  match db.documents.find? r.documentId with
  | none => .error (.keyError "document_id")
  | some d => do
    require (d.activeSourceVersionId.getD [] = r.sourceVersionId)
      (.valueError "field_source_version_changed")
    r.normalized.forM (r.validate db)
    let written ← r.normalized.foldlM r.insertRow db
    let completed ← completeToolOperation r.identity resultRef r.observedAt written
    .ok completed.2

/-- The decisions, and whether they are a replay. -/
def recordFieldConfirmations (r : ConfirmationRequest) :
    Transaction DocumentDb (List FieldDecision × Bool) := fun db => do
  r.check
  let resultRef ← r.resultRef
  let reserved ← reserveToolOperation r.identity r.documentId r.observedAt db
  match reserved.1 with
  | some replayRef => do
    require (replayRef = resultRef) (.valueError "document_tool_operation_result_conflict")
    let rows ← r.verify reserved.2
    .ok ((rows, true), reserved.2)
  | none => do
    let written ← r.write resultRef reserved.2
    let rows ← r.verify written
    .ok ((rows, false), written)

end Confirmations

section Effective

/-- A row of `effective_fields`. -/
structure EffectiveField where
  observationId : Option Str
  fieldName : Str
  value : Json
  literalText : Str
  sensitivity : Sensitivity
  evidence : Json
  observationState : ObservationState
  itemHash : Str
  createdAt : Str
  reviewDecisionId : Option Str
  decisionKind : Option DecisionKind
  deriving DecidableEq

/-- An observation under a decision: `COALESCE(d.applied_value_json, r.value_json)`. -/
def FieldObservation.effective (o : FieldObservation) (d : Option FieldDecision) :
    EffectiveField where
  observationId := some o.observationId
  fieldName := o.fieldName
  value := (d.bind FieldDecision.appliedValue).getD o.value
  literalText := o.literalText
  sensitivity := o.sensitivity
  evidence := o.evidence
  observationState := o.observationState
  itemHash := o.itemHash
  createdAt := o.createdAt
  reviewDecisionId := d.map FieldDecision.reviewDecisionId
  decisionKind := d.map FieldDecision.decisionKind

/-- The decisions about a field that no other was created after. -/
def DocumentDb.latestDecisions (db : DocumentDb) (documentId sourceVersionId fieldName : Str) :
    List FieldDecision :=
  let about := db.decisions.rows.filter
    (FieldDecision.concerns documentId sourceVersionId fieldName)
  about.filter fun d => about.all fun d' => d'.createdAt ≤ d.createdAt

/-- The fields with an observation, each joined with its latest decisions. -/
def DocumentDb.observedFields (db : DocumentDb) (documentId sourceVersionId : Str) :
    List EffectiveField :=
  let about := db.observations.rows.filter fun o =>
    o.documentId = documentId && o.sourceVersionId = sourceVersionId
  let names := (about.map FieldObservation.fieldName).dedup
  (names.filterMap (db.newestObservation documentId sourceVersionId)).flatMap fun o =>
    match db.latestDecisions documentId sourceVersionId o.fieldName with
    | [] => [o.effective none]
    | decisions => decisions.map fun d => o.effective (some d)

/-- The latest decisions with a value, about fields that nothing was observed of. -/
def DocumentDb.humanOnly (db : DocumentDb) (documentId sourceVersionId : Str) :
    List FieldDecision :=
  db.decisions.rows.filter fun d =>
    d.documentId = documentId && d.sourceVersionId = sourceVersionId &&
      d.selectedObservationId = none && d.appliedValue.isSome &&
      (db.latestDecisions documentId sourceVersionId d.fieldName).contains d &&
      !db.observations.rows.any (FieldObservation.concerns documentId sourceVersionId d.fieldName)

variable [PythonText]

def humanOnlyField (documentClass : DocumentClass) (documentId sourceVersionId : Str)
    (d : FieldDecision) : Except PyError EffectiveField := do
  let spec ← fieldSpecFor documentClass d.fieldName
  let bytes ← utf8 (join [0] [documentId, sourceVersionId, d.fieldName, "human-only"])
  .ok {
    observationId := none, fieldName := d.fieldName, value := d.appliedValue.getD .null
    literalText := [], sensitivity := spec.sensitivity, evidence := .arr []
    observationState := .humanCorrected, itemHash := Sha256.hexdigest bytes
    createdAt := d.createdAt, reviewDecisionId := some d.reviewDecisionId
    decisionKind := some d.decisionKind }

/-- Left out while the document has no class. -/
def humanOnlyFields (db : DocumentDb) (d : DocumentRow) (sourceVersionId : Str) :
    Except PyError (List EffectiveField) :=
  match d.selectedDocumentClass with
  | none => .ok []
  | some documentClass => (db.humanOnly d.documentId sourceVersionId).mapM
      (humanOnlyField documentClass d.documentId sourceVersionId)

def effectiveFields (db : DocumentDb) (documentId : Str) : Except PyError (List EffectiveField) :=
  match db.documents.find? documentId with
  | none => .ok []
  | some d =>
    match d.activeSourceVersionId with
    | none => .ok []
    | some sourceVersionId => do
      let human ← humanOnlyFields db d sourceVersionId
      .ok ((db.observedFields documentId sourceVersionId ++ human).insertionSort
        fun f f' => f.fieldName ≤ f'.fieldName)

end Effective

end HardyAI.Documents
