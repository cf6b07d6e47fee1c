import HardyAI.Documents.Fields

/-! Proposals to change the metadata of a document at its provider, and their
synchronisation. -/

open Foundation Foundation.Json

namespace HardyAI.Documents

variable [PythonText]

structure ProposalRequest where
  documentId : Str
  fieldName : Str
  proposedValue : Json
  sensitivity : Sensitivity
  identity : ToolIdentity
  proposalId : Str
  observedAt : Str

def ProposalRequest.normalizedField (r : ProposalRequest) : Str :=
  PythonText.casefold (strip r.fieldName)

omit [PythonText] in
def proposalFields : List Str := ["safe_title", "archive_class", "filing_tag"]

def ProposalRequest.row (r : ProposalRequest) (sourceVersionId valueHash : Str) :
    MetadataProposal where
  proposalId := r.proposalId
  documentId := r.documentId
  sourceVersionId := sourceVersionId
  fieldName := r.normalizedField
  proposedValue := r.proposedValue
  valueHash := valueHash
  sensitivity := r.sensitivity
  reviewId := none
  state := .pendingReview
  createdAt := r.observedAt
  updatedAt := r.observedAt

omit [PythonText] in
/-- `UNIQUE(document_id, source_version_id, field_name, value_hash)`. -/
def MetadataProposal.sameValue (p old : MetadataProposal) : Bool :=
  old.documentId = p.documentId && old.sourceVersionId = p.sourceVersionId &&
    old.fieldName = p.fieldName && old.valueHash = p.valueHash

omit [PythonText] in
def DocumentDb.insertProposal (db : DocumentDb) (p : MetadataProposal) :
    Except PyError DocumentDb :=
  if db.proposals.rows.any p.sameValue then .ok db
  else
    match db.proposals.insert? p with
    | none => .error .integrityError
    | some proposals => do
      require (db.knows p.documentId p.sourceVersionId) .integrityError
      .ok { db with proposals := proposals }

/-- The transaction of `create_metadata_proposal`, with the record that was read before it. -/
def createMetadataProposal (seen : Option DocumentRow) (r : ProposalRequest) :
    Transaction DocumentDb (MetadataProposal × Bool) := fun db =>
  match (seen.bind DocumentRow.activeSourceVersionId).filter (· ≠ []) with
  | none => .error (storageError "document_source_not_ready")
  | some sourceVersionId => do
    require (r.normalizedField ∈ proposalFields)
      (.valueError "unsupported metadata proposal field")
    let encoded ← dump true r.proposedValue
    require (encoded.length ≤ 1000) (.valueError "metadata proposal is too large")
    let valueHash ← payloadHash r.proposedValue
    let reserved ← reserveToolOperation r.identity r.documentId r.observedAt db
    match reserved.1 with
    | some replayRef =>
      match reserved.2.proposals.find? replayRef with
      | none => .error (.valueError "document_tool_operation_replay_target_missing")
      | some replay => .ok ((replay, true), reserved.2)
    | none => do
      let row := r.row sourceVersionId valueHash
      let inserted ← reserved.2.insertProposal row
      match inserted.proposals.rows.find? row.sameValue with
      | none => .error (.runtimeError "metadata proposal did not produce a row")
      | some p => do
        let completed ← completeToolOperation r.identity p.proposalId r.observedAt inserted
        .ok ((p, false), completed.2)

omit [PythonText] in
def bindMetadataReview (documentId proposalId reviewId observedAt : Str) :
    Transaction DocumentDb Bool := fun db =>
  let updated := db.proposals.updateKey proposalId
    (fun p => p.documentId = documentId && p.reviewId.all (· = reviewId))
    { apply := fun p => { p with reviewId := some reviewId, updatedAt := observedAt } }
  .ok (updated.1, { db with proposals := updated.2 })

structure SyncRequest where
  proposalId : Str
  provider : Str
  externalId : Str
  sourceVersionId : Str
  operationId : Str
  desiredHash : Str
  providerVersion : Str
  syncId : Str
  observedAt : Str

omit [PythonText] in
def SyncRequest.row (r : SyncRequest) : MetadataSync where
  syncId := r.syncId
  proposalId := r.proposalId
  provider := r.provider.take 80
  externalId := r.externalId.take 160
  sourceVersionId := r.sourceVersionId
  operationId := r.operationId.take 160
  desiredHash := r.desiredHash
  observedHash := none
  providerVersion := r.providerVersion.take 120
  state := .applying
  errorCode := none
  createdAt := r.observedAt
  updatedAt := r.observedAt

omit [PythonText] in
/-- `ON CONFLICT(operation_id) DO NOTHING`, beside `UNIQUE(proposal_id, provider,
desired_hash)`. -/
def DocumentDb.insertSync (db : DocumentDb) (s : MetadataSync) : Except PyError DocumentDb :=
  if db.syncs.rows.any fun old => old.operationId = s.operationId then .ok db
  else
    match db.syncs.insertApart? (fun old => old.proposalId = s.proposalId &&
        old.provider = s.provider && old.desiredHash = s.desiredHash) s with
    | none => .error .integrityError
    | some syncs => do
      require (db.proposals.find? s.proposalId).isSome .integrityError
      require (db.versions.find? s.sourceVersionId).isSome .integrityError
      .ok { db with syncs := syncs }

omit [PythonText] in
def beginMetadataSync (r : SyncRequest) : Transaction DocumentDb (Option MetadataSync) :=
  fun db => do
    let inserted ← db.insertSync r.row
    .ok (inserted.syncs.rows.find? (fun s => s.operationId = r.operationId), inserted)

structure SyncOutcome where
  operationId : Str
  state : Str
  observedHash : Option Str
  providerVersion : Option Str
  errorCode : Option Str
  observedAt : Str

omit [PythonText] in
def SyncState.ofText? (s : Str) : Option SyncState :=
  if s = text "applied" then some .applied
  else if s = text "failed" then some .failed
  else if s = text "conflicted" then some .conflicted
  else none

omit [PythonText] in
def SyncOutcome.settle (o : SyncOutcome) (state : SyncState) :
    Table.Assignment MetadataSync.syncId where
  apply s := { s with
    state := state
    observedHash := o.observedHash
    providerVersion := ((o.providerVersion.filter (· ≠ [])).map (·.take 120)).getD s.providerVersion
    errorCode := (o.errorCode.filter (· ≠ [])).map (·.take 120)
    updatedAt := o.observedAt }

/-- A missing row is reported after the transaction, which has found nothing to change. -/
def finishMetadataSync (o : SyncOutcome) : Transaction DocumentDb MetadataSync := fun db =>
  match SyncState.ofText? (PythonText.casefold (strip o.state)) with
  | none => .error (.valueError "invalid metadata sync state")
  | some state =>
    let syncs := db.syncs.update (fun s => s.operationId = o.operationId && s.state = .applying)
      (o.settle state)
    match syncs.rows.find? fun s => s.operationId = o.operationId with
    | none => .error (.keyError "operation_id")
    | some s =>
      let proposals := if state = .applied then
          db.proposals.update (fun p => p.proposalId = s.proposalId)
            { apply := fun p => { p with state := .applied, updatedAt := o.observedAt } }
        else db.proposals
      .ok (s, { db with syncs := syncs, proposals := proposals })

end HardyAI.Documents
