import HardyAI.Documents.Types

/-! The archive side of the document store: intakes, the archive sources with their
versions, and what is discovered at the provider. -/

open Foundation

namespace HardyAI.Documents

/-- An update of one document; `KeyError` where there is no such row. -/
def changeDocument (documentId : Str) (f : Table.Assignment DocumentRow.documentId) :
    Transaction DocumentDb DocumentRow := fun db =>
  match db.documents.find? documentId with
  | none => .error (.keyError "document_id")
  | some d => .ok (f.apply d, db.updateDocument documentId f)

section Intakes

structure StagedDocument where
  spoolKey : Str
  originalFilename : Str
  title : Str
  mediaType : Str
  sizeBytes : Int
  sha256 : Str
  ingestRoute : Str

structure IntakeRequest where
  ownerId : Str
  staged : StagedDocument
  documentId : Str
  intakeId : Str
  createdAt : Str

def IntakeRequest.row (r : IntakeRequest) : DocumentRow where
  documentId := r.documentId
  ownerId := r.ownerId
  title := r.staged.title
  sha256 := r.staged.sha256
  sizeBytes := r.staged.sizeBytes
  mediaType := r.staged.mediaType
  state := .awaitingEnqueue
  sourceRef := none
  sensitivity := .private_
  processingState := .notRequested
  activeSourceVersionId := none
  activeRunId := none
  searchVisible := true
  sourceAvailability := .available
  selectedDocumentClass := none
  classificationState := .unclassified
  archiveTextVisible := true
  createdAt := r.createdAt
  updatedAt := r.createdAt
  intake := {
    intakeId := r.intakeId, originalFilename := r.staged.originalFilename
    spoolKey := some r.staged.spoolKey, ingestRoute := r.staged.ingestRoute
    archiveTaskRef := none, durableJobId := none, failureCode := none
    createdAt := r.createdAt, updatedAt := r.createdAt }

/-- `UNIQUE(owner_id, sha256)` and the key of the intake. -/
def DocumentRow.clashes (d old : DocumentRow) : Bool :=
  (old.ownerId = d.ownerId && old.sha256 = d.sha256) || old.intake.intakeId = d.intake.intakeId

def DocumentDb.insertDocument (db : DocumentDb) (d : DocumentRow) : Except PyError DocumentDb :=
  match db.documents.insertApart? d.clashes d with
  | none => .error .integrityError
  | some documents => .ok { db with documents := documents }

def createOrGet (r : IntakeRequest) : Transaction DocumentDb (DocumentRow × Bool) := fun db =>
  match db.documents.rows.find? fun d => d.ownerId = r.ownerId && d.sha256 = r.staged.sha256 with
  | some existing => .ok ((existing, false), db)
  | none => (db.insertDocument r.row).map fun db' => ((r.row, true), db')

/-- `_set_state`. -/
def setState (documentId : Str) (state : DocumentState) (intakeUpdates : Intake → Intake)
    (observedAt : Str) : Transaction DocumentDb DocumentRow :=
  changeDocument documentId
    { apply := fun d => { d with
        state := state
        updatedAt := observedAt
        intake := { intakeUpdates d.intake with updatedAt := observedAt } } }

def markEnqueued (documentId durableJobId observedAt : Str) : Transaction DocumentDb DocumentRow :=
  setState documentId .queued
    (fun i => { i with durableJobId := some durableJobId, failureCode := none }) observedAt

def markArchiving (documentId taskRef observedAt : Str) : Transaction DocumentDb DocumentRow :=
  setState documentId .archiving
    (fun i => { i with archiveTaskRef := some taskRef, failureCode := none }) observedAt

def failureState (i : Intake) (terminal : Bool) : DocumentState :=
  if terminal then .failed else if i.archiveTaskRef.isSome then .archiving else .queued

def markFailure (documentId errorCode : Str) (terminal : Bool) (observedAt : Str) :
    Transaction DocumentDb DocumentRow :=
  changeDocument documentId
    { apply := fun d => { d with
        state := failureState d.intake terminal
        updatedAt := observedAt
        intake := { d.intake with
          failureCode := some (errorCode.take 120)
          updatedAt := observedAt } } }

def clearSpool (documentId expectedSpoolKey observedAt : Str) :
    Transaction DocumentDb DocumentRow :=
  changeDocument documentId
    { apply := fun d => { d with
        intake := if d.intake.spoolKey = some expectedSpoolKey then
          { d.intake with spoolKey := none, updatedAt := observedAt } else d.intake } }

end Intakes

section Sources

/-- `INSERT INTO document_source_versions`. -/
def DocumentDb.insertVersion (db : DocumentDb) (v : SourceVersion) : Except PyError DocumentDb := do
  require (db.documents.find? v.documentId).isSome .integrityError
  require (db.sources.find? v.sourceRef).isSome .integrityError
  match db.versions.insertApart? (fun old => old.documentId = v.documentId &&
      old.sourceRef = v.sourceRef && old.originalSha256 = v.originalSha256) v with
  | none => .error .integrityError
  | some versions => .ok { db with versions := versions }

/-- `INSERT INTO document_archive_sources`. -/
def DocumentDb.insertSource (db : DocumentDb) (s : ArchiveSource) : Except PyError DocumentDb := do
  require (db.documents.find? s.documentId).isSome .integrityError
  match db.sources.insertApart? (fun old => old.documentId = s.documentId ||
      (old.provider = s.provider && old.externalId = s.externalId)) s with
  | none => .error .integrityError
  | some sources => .ok { db with sources := sources }

structure ReadyRequest where
  documentId : Str
  provider : Str
  externalId : Str
  verifiedSha256 : Str
  sourceRef : Str
  sourceVersionId : Str
  observedAt : Str

/-- The source of the document, with its reference. -/
def ReadyRequest.resolveSource (r : ReadyRequest) (db : DocumentDb) :
    Except PyError (Str × DocumentDb) := do
  require ((db.sources.rows.find? fun s => s.documentId = r.documentId).all
    fun s => s.externalId = r.externalId) (storageError "archive_source_conflict")
  match db.sources.rows.find? fun s => s.provider = r.provider && s.externalId = r.externalId with
  | some existing => do
    require (existing.documentId = r.documentId) (storageError "archive_source_conflict")
    .ok (existing.sourceRef, db)
  | none => do
    let db' ← db.insertSource {
      sourceRef := r.sourceRef, documentId := r.documentId, provider := r.provider
      externalId := r.externalId, verifiedSha256 := r.verifiedSha256, verifiedAt := r.observedAt }
    .ok (r.sourceRef, db')

/-- The version of the verified original under a source. -/
def ReadyRequest.versionOf (r : ReadyRequest) (sourceRef : Str) (db : DocumentDb) :
    Option SourceVersion :=
  db.versions.rows.find? fun v => v.documentId = r.documentId && v.sourceRef = sourceRef &&
    v.originalSha256 = r.verifiedSha256

/-- The version of the verified original, with its identity. -/
def ReadyRequest.resolveVersion (r : ReadyRequest) (d : DocumentRow) (sourceRef : Str)
    (db : DocumentDb) : Except PyError (Str × DocumentDb) :=
  match r.versionOf sourceRef db with
  | some v => .ok (v.sourceVersionId, db)
  | none => do
    let db' ← db.insertVersion {
      sourceVersionId := r.sourceVersionId, documentId := r.documentId, sourceRef := sourceRef
      originalSha256 := r.verifiedSha256, mediaType := d.mediaType, sizeBytes := d.sizeBytes
      originalFilename := d.intake.originalFilename, ingestRoute := d.intake.ingestRoute
      externalVersion := none, receivedAt := d.createdAt, archivedAt := some r.observedAt
      createdAt := r.observedAt }
    .ok (r.sourceVersionId, db')

def ReadyRequest.select (r : ReadyRequest) (sourceRef sourceVersionId : Str) :
    Table.Assignment DocumentRow.documentId where
  apply d := { d with
    state := .ready
    sourceRef := some sourceRef
    activeSourceVersionId := some sourceVersionId
    updatedAt := r.observedAt
    intake := { d.intake with failureCode := none, updatedAt := r.observedAt } }

def markReady (r : ReadyRequest) : Transaction DocumentDb DocumentRow := fun db =>
  match db.documents.find? r.documentId with
  | none => .error (.keyError "document_id")
  | some d => do
    let source ← r.resolveSource db
    let version ← r.resolveVersion d source.1 source.2
    changeDocument r.documentId (r.select source.1 version.1) version.2

end Sources

section Origins

/-- `document_for_external_id`. -/
def documentForExternalId (db : DocumentDb) (provider externalId : Str) (visibleOnly : Bool) :
    Option DocumentRow :=
  ((db.sources.rows.find? fun s => s.provider = provider && s.externalId = externalId).bind
    fun s => db.documents.find? s.documentId).filter fun d => !visibleOnly || d.searchVisible

structure OriginRequest where
  provider : Str
  externalId : Str
  externalVersion : Option Str
  ownerId : Str
  title : Str
  originalFilename : Str
  mediaType : Str
  sha256 : Str
  sizeBytes : Int
  observedAt : Str
  documentId : Str
  intakeId : Str
  sourceRef : Str
  sourceVersionId : Str

def OriginRequest.row (r : OriginRequest) : DocumentRow where
  documentId := r.documentId
  ownerId := r.ownerId
  title := r.title
  sha256 := r.sha256
  sizeBytes := r.sizeBytes
  mediaType := r.mediaType
  state := .ready
  sourceRef := some r.sourceRef
  sensitivity := .private_
  processingState := .notRequested
  activeSourceVersionId := some r.sourceVersionId
  activeRunId := none
  searchVisible := true
  sourceAvailability := .available
  selectedDocumentClass := none
  classificationState := .unclassified
  archiveTextVisible := true
  createdAt := r.observedAt
  updatedAt := r.observedAt
  intake := {
    intakeId := r.intakeId, originalFilename := r.originalFilename, spoolKey := none
    ingestRoute := "paperless", archiveTaskRef := none, durableJobId := none, failureCode := none
    createdAt := r.observedAt, updatedAt := r.observedAt }

def OriginRequest.version (r : OriginRequest) (documentId sourceRef : Str) : SourceVersion where
  sourceVersionId := r.sourceVersionId
  documentId := documentId
  sourceRef := sourceRef
  originalSha256 := r.sha256
  mediaType := r.mediaType
  sizeBytes := r.sizeBytes
  originalFilename := r.originalFilename
  ingestRoute := "paperless"
  externalVersion := r.externalVersion
  receivedAt := r.observedAt
  archivedAt := some r.observedAt
  createdAt := r.observedAt

def DocumentDb.recordPresent (db : DocumentDb) (r : OriginRequest) (documentId : Str) :
    Except PyError DocumentDb := do
  require (db.documents.find? documentId).isSome .integrityError
  .ok { db with snapshots := db.snapshots.upsert {
        provider := r.provider, externalId := r.externalId, externalVersion := r.externalVersion
        documentId := some documentId, observedHash := r.sha256, observedState := .present
        lastSeenAt := r.observedAt } }

def OriginRequest.createOrigin (r : OriginRequest) (db : DocumentDb) :
    Except PyError DocumentDb := do
  require (!db.documents.rows.any fun d => d.ownerId = r.ownerId && d.sha256 = r.sha256)
    (storageError "paperless_origin_duplicate_conflict")
  let inserted ← db.insertDocument r.row
  let bound ← inserted.insertSource {
    sourceRef := r.sourceRef, documentId := r.documentId, provider := r.provider
    externalId := r.externalId, verifiedSha256 := r.sha256, verifiedAt := r.observedAt }
  bound.insertVersion (r.version r.documentId r.sourceRef)

/-- The `SET` clause for an original that has changed at its origin. -/
def OriginRequest.replaceOriginal (r : OriginRequest) :
    Table.Assignment DocumentRow.documentId where
  apply d := { d with
    title := r.title
    sha256 := r.sha256
    sizeBytes := r.sizeBytes
    mediaType := r.mediaType
    activeSourceVersionId := some r.sourceVersionId
    activeRunId := none
    processingState := .notRequested
    searchVisible := true
    sourceAvailability := .available
    updatedAt := r.observedAt }

/-- The `SET` clause for an original that is as it was. -/
def OriginRequest.rediscover (r : OriginRequest) : Table.Assignment DocumentRow.documentId where
  apply d := { d with
    title := r.title
    searchVisible := true
    sourceAvailability := .available
    updatedAt := r.observedAt }

/-- No other document of the owner has the new digest. -/
def OriginRequest.digestFree (r : OriginRequest) (documentId : Str) (db : DocumentDb) : Bool :=
  (db.documents.find? documentId).all fun d => db.documents.rows.all fun other =>
    other.documentId = documentId || other.ownerId ≠ d.ownerId || other.sha256 ≠ r.sha256

def OriginRequest.refreshOrigin (r : OriginRequest) (existing : DocumentRow) (db : DocumentDb) :
    Except PyError DocumentDb :=
  let sourceRef := existing.sourceRef.getD "None"
  if existing.sha256 ≠ r.sha256 then do
    let versioned ← db.insertVersion (r.version existing.documentId sourceRef)
    require (r.digestFree existing.documentId versioned) .integrityError
    let replaced := versioned.updateDocument existing.documentId r.replaceOriginal
    .ok { replaced with
      sources := replaced.sources.update (fun s => s.sourceRef = sourceRef)
        { apply := fun s => { s with verifiedSha256 := r.sha256, verifiedAt := r.observedAt } } }
  else .ok (db.updateDocument existing.documentId r.rediscover)

def OriginRequest.write (r : OriginRequest) (existing : Option DocumentRow) (db : DocumentDb) :
    Except PyError DocumentDb :=
  match existing with
  | none => r.createOrigin db
  | some d => r.refreshOrigin d db

/-- The transaction of `reconcile_discovered_origin`, with the record that was read before
it. -/
def reconcileDiscoveredOrigin (existing : Option DocumentRow) (r : OriginRequest) :
    Transaction DocumentDb (DocumentRow × Bool) := fun db => do
  require (existing.all fun d => d.ownerId = r.ownerId)
    (storageError "paperless_origin_owner_conflict")
  let written ← r.write existing db
  let documentId := (existing.map DocumentRow.documentId).getD r.documentId
  let recorded ← written.recordPresent r documentId
  match recorded.documents.find? documentId with
  | none => .error (.runtimeError "Paperless origin reconciliation did not produce a row")
  | some d => .ok ((d, existing.isNone), recorded)

def ProviderSnapshot.stale (provider observedAt : Str) (s : ProviderSnapshot) : Bool :=
  s.provider = provider && s.lastSeenAt < observedAt && s.observedState = .present

def markMissingProviderOrigins (provider observedAt : Str) : Transaction DocumentDb Nat :=
  fun db =>
    let documentIds := (db.snapshots.rows.filter
      (ProviderSnapshot.stale provider observedAt)).filterMap ProviderSnapshot.documentId
    .ok (documentIds.length,
      { db with
        documents := db.documents.update (fun d => documentIds.contains d.documentId)
          { apply := fun d => { d with
              sourceAvailability := .unavailable
              searchVisible := false
              updatedAt := observedAt } }
        snapshots := db.snapshots.update (ProviderSnapshot.stale provider observedAt)
          { apply := fun s => { s with observedState := .missing } } })

end Origins

end HardyAI.Documents
