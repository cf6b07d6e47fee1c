import HardyAI.Documents.Archive

/-! Processing runs, from the request to the terminal status, and the blocks that
search and evidence read. -/

open Foundation Foundation.Json

namespace HardyAI.Documents

section ToolOperations

variable [PythonText]

structure ToolIdentity where
  operationId : Option Str
  toolId : Option Str
  argumentsHash : Option Str

def ToolIdentity.operation (i : ToolIdentity) : Str := strip (i.operationId.getD [])

def ToolIdentity.tool (i : ToolIdentity) : Str := PythonText.casefold (strip (i.toolId.getD []))

def ToolIdentity.hash (i : ToolIdentity) : Str :=
  PythonText.casefold (strip (i.argumentsHash.getD []))

omit [PythonText] in
def ToolIdentity.partial_ (i : ToolIdentity) : Bool :=
  i.toolId.getD [] ≠ [] || i.argumentsHash.getD [] ≠ []

/-- The operation is reserved, or was completed before with the reference that is given. -/
def reserveToolOperation (i : ToolIdentity) (targetRef createdAt : Str) :
    Transaction DocumentDb (Option Str) := fun db =>
  if i.operation = [] then do
    require (!i.partial_) (.valueError "document_tool_operation_identity_incomplete")
    .ok (none, db)
  else do
    require (i.tool ≠ [] && i.hash.length = 64)
      (.valueError "document_tool_operation_identity_invalid")
    match db.toolOperations.find? i.operation with
    | some existing => do
      require (existing.toolId = i.tool && existing.argumentsHash = i.hash &&
        existing.targetRef = targetRef) (.valueError "document_tool_operation_id_conflict")
      require (existing.completed && existing.resultRef.getD [] ≠ [])
        (.valueError "document_tool_operation_incomplete")
      .ok (existing.resultRef, db)
    | none =>
      match db.toolOperations.insert? {
          operationId := i.operation, toolId := i.tool, argumentsHash := i.hash
          completed := false, targetRef := targetRef, resultRef := none
          createdAt := createdAt, completedAt := none } with
      | none => .error .integrityError
      | some operations => .ok (none, { db with toolOperations := operations })

omit [PythonText] in
def completeToolOperation (i : ToolIdentity) (resultRef completedAt : Str) :
    Transaction DocumentDb Unit := fun db =>
  if i.operation = [] then .ok ((), db)
  else
    match db.toolOperations.updateKey i.operation (fun o => !o.completed)
      { apply := fun o => { o with
          completed := true
          resultRef := some resultRef
          completedAt := some completedAt } } with
    | (true, operations) => .ok ((), { db with toolOperations := operations })
    | (false, _) => .error (.valueError "document_tool_operation_completion_conflict")

end ToolOperations

section Requests

structure RunRequest where
  documentId : Str
  route : ProcessingRoute
  parserName : Str
  parserVersion : Str
  parserImageDigest : Option Str
  configurationSha256 : Str
  artifactSchemaVersion : Str
  resourceLane : Str
  fallbackFromRunId : Option Str
  requestKey : Option Str
  identity : ToolIdentity
  runId : Str
  observedAt : Str

def RunRequest.normalizedKey (r : RunRequest) (sourceVersionId : Str) : Str :=
  let given := (strip (r.requestKey.getD [])).take 240
  if given ≠ [] then given
  else "automatic:" ++ sourceVersionId ++ ":" ++ r.route.value ++ ":" ++ r.configurationSha256

def RunRequest.row (r : RunRequest) (sourceVersionId : Str) : ProcessingRun where
  runId := r.runId
  documentId := r.documentId
  sourceVersionId := sourceVersionId
  status := .queued
  route := r.route
  parserName := r.parserName.take 80
  parserVersion := r.parserVersion.take 80
  parserImageDigest := (r.parserImageDigest.filter (· ≠ [])).map (·.take 160)
  configurationSha256 := r.configurationSha256
  artifactSchemaVersion := r.artifactSchemaVersion.take 40
  resourceLane := r.resourceLane.take 40
  fallbackFromRunId := r.fallbackFromRunId
  requestKey := r.normalizedKey sourceVersionId
  providerOperationRef := none
  fencingToken := 0
  errorCode := none
  startedAt := none
  completedAt := none
  createdAt := r.observedAt
  updatedAt := r.observedAt

/-- `INSERT … ON CONFLICT DO NOTHING`, with the foreign keys of a row that is inserted. -/
def DocumentDb.insertRun (db : DocumentDb) (run : ProcessingRun) : Except PyError DocumentDb :=
  match db.runs.insertApart? (fun old => old.requestKey = run.requestKey) run with
  | none => .ok db
  | some runs => do
    require (db.documents.find? run.documentId).isSome .integrityError
    require (db.versions.find? run.sourceVersionId).isSome .integrityError
    require (run.fallbackFromRunId.all fun id => (runs.find? id).isSome) .integrityError
    .ok { db with runs := runs }

def DocumentDb.runByKey (db : DocumentDb) (requestKey : Str) : Option ProcessingRun :=
  db.runs.rows.find? fun run => run.requestKey = requestKey

/-- The document waits for a run unless its processing is complete. -/
def queueDocument (observedAt : Str) : Table.Assignment DocumentRow.documentId where
  apply d := if d.processingState = .complete then d else
    { d with processingState := .queued, updatedAt := observedAt }
  keeps d := by by_cases h : d.processingState = .complete <;> simp [h]

variable [PythonText]

/-- The transaction of `create_processing_run`, with the record that was read before it. -/
def createProcessingRun (seen : Option DocumentRow) (r : RunRequest) :
    Transaction DocumentDb (ProcessingRun × Bool) := fun db =>
  match (seen.bind DocumentRow.activeSourceVersionId).filter (· ≠ []) with
  | none => .error (storageError "document_source_not_ready")
  | some sourceVersionId => do
    let reserved ← reserveToolOperation r.identity r.documentId r.observedAt db
    match reserved.1 with
    | some replayRef =>
      match reserved.2.runs.rows.find? fun run =>
          run.runId = replayRef && run.documentId = r.documentId with
      | none => .error (.valueError "document_tool_operation_replay_target_missing")
      | some replay => .ok ((replay, true), reserved.2)
    | none => do
      let inserted ← reserved.2.insertRun (r.row sourceVersionId)
      match inserted.runByKey (r.normalizedKey sourceVersionId) with
      | none => .error (.runtimeError "processing run creation did not produce a row")
      | some run => do
        let completed ← completeToolOperation r.identity run.runId r.observedAt
          (inserted.updateDocument r.documentId (queueDocument r.observedAt))
        .ok ((run, false), completed.2)

end Requests

section Fenced

/-- A run that a worker may begin with the token. -/
def ProcessingRun.beginnable (token : Int) (run : ProcessingRun) : Bool :=
  (run.status = .queued || run.status = .processing || run.status = .failed) &&
    run.fencingToken ≤ token

def beginRun (token : Int) (observedAt : Str) : Table.Assignment ProcessingRun.runId where
  apply run := { run with
    status := .processing
    fencingToken := token
    startedAt := some (run.startedAt.getD observedAt)
    errorCode := none
    updatedAt := observedAt }

/-- Only the token is compared after the update. -/
def beginProcessingRun (runId : Str) (token : Int) (observedAt : Str) :
    Transaction DocumentDb ProcessingRun := fun db =>
  let runs := (db.runs.updateKey runId (ProcessingRun.beginnable token)
    (beginRun token observedAt)).2
  match runs.find? runId with
  | none => .error (.keyError "run_id")
  | some run =>
    if run.fencingToken ≠ token then .error (storageError "stale_processing_fence")
    else .ok (run, ({ db with runs := runs }).updateDocument run.documentId
      { apply := fun d => { d with processingState := .processing, updatedAt := observedAt } })

/-- `fencing_token = ? AND status = 'processing'`. -/
def ProcessingRun.heldBy (token : Int) (run : ProcessingRun) : Bool :=
  run.fencingToken = token && run.status = .processing

def setProcessingOperation (runId : Str) (token : Int) (operationRef observedAt : Str) :
    Transaction DocumentDb Bool := fun db =>
  let updated := db.runs.updateKey runId (ProcessingRun.heldBy token)
    { apply := fun run => { run with
        providerOperationRef := some (operationRef.take 240)
        updatedAt := observedAt } }
  .ok (updated.1, { db with runs := updated.2 })

def clearProcessingOperation (runId : Str) (token : Int) (expectedRef observedAt : Str) :
    Transaction DocumentDb Bool := fun db =>
  let updated := db.runs.updateKey runId
    (fun run => run.heldBy token && run.providerOperationRef = some expectedRef)
    { apply := fun run => { run with providerOperationRef := none, updatedAt := observedAt } }
  .ok (updated.1, { db with runs := updated.2 })

structure StageRequest where
  runId : Str
  token : Int
  stage : Str
  stageVersion : Str
  resultHash : Str
  stageCommitId : Str
  observedAt : Str

def StageRequest.row (r : StageRequest) : StageCommit where
  stageCommitId := r.stageCommitId
  runId := r.runId
  stage := r.stage.take 80
  stageVersion := r.stageVersion.take 40
  fencingToken := r.token
  resultHash := r.resultHash
  committedAt := r.observedAt

/-- `UNIQUE(run_id, stage, stage_version)`. -/
def StageCommit.sameStage (c old : StageCommit) : Bool :=
  old.runId = c.runId && old.stage = c.stage && old.stageVersion = c.stageVersion

def DocumentDb.insertStage (db : DocumentDb) (c : StageCommit) : Except PyError DocumentDb :=
  if db.stageCommits.rows.any c.sameStage then .ok db
  else
    match db.stageCommits.insert? c with
    | none => .error .integrityError
    | some commits => .ok { db with stageCommits := commits }

def commitStage (r : StageRequest) : Transaction DocumentDb Bool := fun db =>
  match db.runs.find? r.runId with
  | none => .error (.keyError "run_id")
  | some run => do
    require (run.heldBy r.token) (storageError "stale_processing_fence")
    let inserted ← db.insertStage r.row
    match inserted.stageCommits.rows.find? r.row.sameStage with
    | none => .error (.runtimeError "stage commit did not produce a row")
    | some c => do
      -- raised after the commit, of a row that was there before: nothing was written
      require (c.fencingToken = r.token && c.resultHash = r.resultHash)
        (storageError "stage_commit_conflict")
      .ok (true, inserted)

def ProcessingState.terminal : ProcessingState → Bool
  | .complete | .needsReview | .processingIncomplete | .failed | .cancelled
  | .protectedPending => true
  | .notRequested | .queued | .processing => false

structure FinishRequest where
  runId : Str
  token : Int
  state : ProcessingState
  errorCode : Option Str
  activate : Bool
  observedAt : Str

def FinishRequest.close (r : FinishRequest) : Table.Assignment ProcessingRun.runId where
  apply run := { run with
    status := r.state
    errorCode := (r.errorCode.filter (· ≠ [])).map (·.take 120)
    completedAt := some r.observedAt
    updatedAt := r.observedAt }

def FinishRequest.settle (r : FinishRequest) : Table.Assignment DocumentRow.documentId where
  apply d := { d with
    processingState := r.state
    activeRunId := if r.activate then some r.runId else d.activeRunId
    updatedAt := r.observedAt }

def finishProcessingRun (r : FinishRequest) : Transaction DocumentDb ProcessingRun := fun db => do
  require r.state.terminal (.valueError "processing run target is not terminal")
  match db.runs.updateKey r.runId (ProcessingRun.heldBy r.token) r.close with
  | (false, _) => .error (storageError "stale_processing_fence")
  | (true, runs) =>
    match runs.find? r.runId with
    | none => .error (.keyError "run_id")
    | some run => .ok (run, ({ db with runs := runs }).updateDocument run.documentId r.settle)

end Fenced

section Projection

structure NormalizedPage where
  pageNumber : Int
  coordinateSpace : Str
  rotationDegrees : Option Int
  quality : Option Json

structure NormalizedBlock where
  blockId : Str
  pageNumber : Int
  kind : Option Str
  readingOrder : Option Int
  text : Option Str
  bbox : Option Json
  charSpan : Option Json
  providerRef : Option Str
  language : Option Str

structure NormalizedCell where
  cellId : Str
  rowIndex : Int
  columnIndex : Int
  rowSpan : Option Int
  columnSpan : Option Int
  text : Option Str
  bbox : Option Json
  providerRef : Option Str

structure NormalizedTable where
  tableId : Str
  pageNumber : Int
  readingOrder : Option Int
  rowCount : Option Int
  columnCount : Option Int
  bbox : Option Json
  providerRef : Option Str
  cells : List NormalizedCell

structure ProjectionRequest where
  runId : Str
  documentId : Str
  sourceVersionId : Str
  token : Int
  pages : List NormalizedPage
  blocks : List NormalizedBlock
  tables : List NormalizedTable
  sensitivity : Sensitivity

/-- `str(value)[:n] if value else None`. -/
def textUpTo (n : Nat) (value : Option Str) : Option Str :=
  (value.filter (· ≠ [])).map (·.take n)

/-- `max(1, int(value or 1))`. -/
def spanOf (value : Option Int) : Int :=
  let given := value.getD 0
  max 1 (if given = 0 then 1 else given)

def ProjectionRequest.page (r : ProjectionRequest) (p : NormalizedPage) : Page where
  runId := r.runId
  pageNumber := p.pageNumber
  coordinateSpace := p.coordinateSpace
  rotationDegrees := p.rotationDegrees.getD 0
  quality := p.quality.getD (.obj [])

def ProjectionRequest.block (r : ProjectionRequest) (b : NormalizedBlock) : Block where
  runId := r.runId
  blockId := b.blockId
  documentId := r.documentId
  sourceVersionId := r.sourceVersionId
  pageNumber := b.pageNumber
  blockKind := (((b.kind.filter (· ≠ [])).getD "other").take 40)
  readingOrder := b.readingOrder.getD 0
  literalText := b.text.getD []
  bbox := b.bbox
  charSpan := b.charSpan
  providerRef := textUpTo 240 b.providerRef
  sensitivity := r.sensitivity
  language := textUpTo 40 b.language

def ProjectionRequest.table (r : ProjectionRequest) (t : NormalizedTable) : DocumentTable where
  runId := r.runId
  tableId := t.tableId
  documentId := r.documentId
  sourceVersionId := r.sourceVersionId
  pageNumber := t.pageNumber
  readingOrder := t.readingOrder.getD 0
  rowCount := t.rowCount.getD 0
  columnCount := t.columnCount.getD 0
  bbox := t.bbox
  providerRef := textUpTo 240 t.providerRef
  sensitivity := r.sensitivity

def ProjectionRequest.cell (r : ProjectionRequest) (t : NormalizedTable) (c : NormalizedCell) :
    TableCell where
  runId := r.runId
  tableId := t.tableId
  cellId := c.cellId
  rowIndex := c.rowIndex
  columnIndex := c.columnIndex
  rowSpan := spanOf c.rowSpan
  columnSpan := spanOf c.columnSpan
  literalText := c.text.getD []
  bbox := c.bbox
  providerRef := textUpTo 240 c.providerRef

def insertRow {Row Key : Type} {key : Row → Key} [DecidableEq Key] (t : Table key) (r : Row) :
    Except PyError (Table key) :=
  match t.insert? r with
  | none => .error .integrityError
  | some t' => .ok t'

/-- The foreign keys of the rows that name the document and the version. -/
def DocumentDb.knows (db : DocumentDb) (documentId sourceVersionId : Str) : Bool :=
  (db.documents.find? documentId).isSome && (db.versions.find? sourceVersionId).isSome

/-- A table with its cells. -/
def ProjectionRequest.insertTable (r : ProjectionRequest)
    (written : Table DocumentTable.place × Table TableCell.place) (t : NormalizedTable) :
    Except PyError (Table DocumentTable.place × Table TableCell.place) := do
  let tables ← insertRow written.1 (r.table t)
  let cells ← t.cells.foldlM (fun cells c => do
    require ((c.text.getD []).length ≤ 20000) (storageError "document_table_cell_too_large")
    insertRow cells (r.cell t c)) written.2
  .ok (tables, cells)

def ProjectionRequest.insertBlock (r : ProjectionRequest) (blocks : Table Block.place)
    (b : NormalizedBlock) : Except PyError (Table Block.place) := do
  require ((b.text.getD []).length ≤ 20000) (storageError "document_block_too_large")
  insertRow blocks (r.block b)

def replaceNormalizedProjection (r : ProjectionRequest) : Transaction DocumentDb Unit :=
  fun db => do
    require ((db.runs.find? r.runId).any fun run => run.heldBy r.token)
      (storageError "stale_processing_fence")
    let pages ← r.pages.foldlM (fun pages p => insertRow pages (r.page p))
      (db.pages.delete fun p => p.runId = r.runId)
    require (r.tables.isEmpty || db.knows r.documentId r.sourceVersionId) .integrityError
    let written ← r.tables.foldlM r.insertTable
      (db.tables.delete fun t => t.runId = r.runId, db.cells.delete fun c => c.runId = r.runId)
    require (r.blocks.isEmpty || db.knows r.documentId r.sourceVersionId) .integrityError
    let blocks ← r.blocks.foldlM r.insertBlock (db.blocks.delete fun b => b.runId = r.runId)
    .ok ((), { db with
      pages := pages, tables := written.1, cells := written.2, blocks := blocks })

end Projection

section Search

/-- `text LIKE pattern` of SQLite, which folds the case of ASCII letters. -/
def sqlLike : Str → Str → Bool
  | [] => fun t => t.isEmpty
  | c :: pattern =>
    if c = codePoint '%' then fun t => t.tails.any (sqlLike pattern)
    else fun t => match t with
      | [] => false
      | x :: t => (c = codePoint '_' || asciiLower c = asciiLower x) && sqlLike pattern t

/-- `max(1, min(int(limit), 100))`. -/
def pageLimit (limit : Int) : Nat := (max 1 (min limit 100)).toNat

/-- A block of the active run of a document that may be read. -/
def DocumentDb.readable (db : DocumentDb) (ownerId : Str) (b : Block) : Option DocumentRow :=
  (db.documents.find? b.documentId).filter fun d => d.ownerId = ownerId && d.searchVisible &&
    d.processingState = .complete && d.activeRunId = some b.runId

/-- A block with the title and the sensitivity of its document. -/
structure BlockHit where
  block : Block
  title : Str
  sensitivity : Sensitivity
  deriving DecidableEq

def DocumentDb.hit (db : DocumentDb) (ownerId : Str) (b : Block) : Option BlockHit :=
  (db.readable ownerId b).map fun d => ⟨b, d.title, d.sensitivity⟩

/-- `ORDER BY page_number, reading_order`. -/
def BlockHit.inDocument (h h' : BlockHit) : Prop :=
  h.block.pageNumber < h'.block.pageNumber ∨ h.block.pageNumber = h'.block.pageNumber ∧
    h.block.readingOrder ≤ h'.block.readingOrder

/-- `ORDER BY document_id, page_number, reading_order`. -/
def BlockHit.inOrder (h h' : BlockHit) : Prop :=
  h.block.documentId < h'.block.documentId ∨ h.block.documentId = h'.block.documentId ∧
    h.inDocument h'

instance : DecidableRel BlockHit.inDocument := fun h h' => by
  unfold BlockHit.inDocument
  infer_instance

instance : DecidableRel BlockHit.inOrder := fun h h' => by
  unfold BlockHit.inOrder
  infer_instance

variable [PythonText]

def searchTerms (query : Str) : List Str := ((splitWords query).map PythonText.casefold).take 8

def searchBlocks (db : DocumentDb) (ownerId query : Str) (limit : Int) : List BlockHit :=
  let terms := searchTerms query
  if terms.isEmpty then [] else
    (((db.blocks.rows.filter fun b => terms.any fun term =>
      sqlLike ("%" ++ term ++ "%") b.literalText).filterMap (db.hit ownerId)).insertionSort
        BlockHit.inOrder).take (pageLimit limit)

omit [PythonText] in
def evidenceBlocks (db : DocumentDb) (documentId ownerId : Str) (blockId : Option Str)
    (pageNumber : Option Int) (limit : Int) : List BlockHit :=
  (((db.blocks.rows.filter fun b => b.documentId = documentId &&
      ((blockId.filter (· ≠ [])).all fun id => b.blockId = id.take 120) &&
      pageNumber.all fun n => b.pageNumber = max 1 n).filterMap
        (db.hit ownerId)).insertionSort BlockHit.inDocument).take (pageLimit limit)

end Search

end HardyAI.Documents
