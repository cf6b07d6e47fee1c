import HardyAI.Documents.Metadata
import HardyAI.Foundation.Trace

/-! The calls of the document repository, each one transaction, and what the calls that
write documents or runs leave behind. -/

open Foundation Foundation.Json

namespace HardyAI.Documents

section Calls

variable [PythonText] [FieldText]

/-- A call that reads before its transaction comes with the record that it has read. -/
inductive Call
  | createOrGet (r : IntakeRequest)
  | markEnqueued (documentId durableJobId observedAt : Str)
  | markArchiving (documentId taskRef observedAt : Str)
  | markFailure (documentId errorCode : Str) (terminal : Bool) (observedAt : Str)
  | markReady (r : ReadyRequest)
  | clearSpool (documentId expectedSpoolKey observedAt : Str)
  | reconcileDiscoveredOrigin (existing : Option DocumentRow) (r : OriginRequest)
  | markMissingProviderOrigins (provider observedAt : Str)
  | createProcessingRun (seen : Option DocumentRow) (r : RunRequest)
  | beginProcessingRun (runId : Str) (token : Int) (observedAt : Str)
  | setProcessingOperation (runId : Str) (token : Int) (operationRef observedAt : Str)
  | clearProcessingOperation (runId : Str) (token : Int) (expectedRef observedAt : Str)
  | commitStage (r : StageRequest)
  | replaceNormalizedProjection (r : ProjectionRequest)
  | finishProcessingRun (r : FinishRequest)
  | appendClassification (r : ClassificationRequest)
  | markProtectedPending (r : ProtectRequest)
  | setArchiveTextVisibility (documentId : Str) (visible : Bool) (observedAt : Str)
  | appendFieldObservations (r : ObservationRequest)
  | recordFieldDecision (r : DecisionRequest)
  | recordFieldConfirmations (r : ConfirmationRequest)
  | createMetadataProposal (seen : Option DocumentRow) (r : ProposalRequest)
  | bindMetadataReview (documentId proposalId reviewId observedAt : Str)
  | beginMetadataSync (r : SyncRequest)
  | finishMetadataSync (o : SyncOutcome)

/-- The store after a call. -/
def Call.commit (db : DocumentDb) : Call → DocumentDb
  | .createOrGet r => (Documents.createOrGet r).commit db
  | .markEnqueued documentId durableJobId observedAt =>
    (Documents.markEnqueued documentId durableJobId observedAt).commit db
  | .markArchiving documentId taskRef observedAt =>
    (Documents.markArchiving documentId taskRef observedAt).commit db
  | .markFailure documentId errorCode terminal observedAt =>
    (Documents.markFailure documentId errorCode terminal observedAt).commit db
  | .markReady r => (Documents.markReady r).commit db
  | .clearSpool documentId expectedSpoolKey observedAt =>
    (Documents.clearSpool documentId expectedSpoolKey observedAt).commit db
  | .reconcileDiscoveredOrigin existing r =>
    (Documents.reconcileDiscoveredOrigin existing r).commit db
  | .markMissingProviderOrigins provider observedAt =>
    (Documents.markMissingProviderOrigins provider observedAt).commit db
  | .createProcessingRun seen r => (Documents.createProcessingRun seen r).commit db
  | .beginProcessingRun runId token observedAt =>
    (Documents.beginProcessingRun runId token observedAt).commit db
  | .setProcessingOperation runId token operationRef observedAt =>
    (Documents.setProcessingOperation runId token operationRef observedAt).commit db
  | .clearProcessingOperation runId token expectedRef observedAt =>
    (Documents.clearProcessingOperation runId token expectedRef observedAt).commit db
  | .commitStage r => (Documents.commitStage r).commit db
  | .replaceNormalizedProjection r => (Documents.replaceNormalizedProjection r).commit db
  | .finishProcessingRun r => (Documents.finishProcessingRun r).commit db
  | .appendClassification r => (Documents.appendClassification r).commit db
  | .markProtectedPending r => (Documents.markProtectedPending r).commit db
  | .setArchiveTextVisibility documentId visible observedAt =>
    (Documents.setArchiveTextVisibility documentId visible observedAt).commit db
  | .appendFieldObservations r => (Documents.appendFieldObservations r).commit db
  | .recordFieldDecision r => (Documents.recordFieldDecision r db).2
  | .recordFieldConfirmations r => (Documents.recordFieldConfirmations r).commit db
  | .createMetadataProposal seen r => (Documents.createMetadataProposal seen r).commit db
  | .bindMetadataReview documentId proposalId reviewId observedAt =>
    (Documents.bindMetadataReview documentId proposalId reviewId observedAt).commit db
  | .beginMetadataSync r => (Documents.beginMetadataSync r).commit db
  | .finishMetadataSync o => (Documents.finishMetadataSync o).commit db

end Calls

section Archive

variable {db db' : DocumentDb}

theorem changeDocument_eq_ok {documentId : Str} {f : Table.Assignment DocumentRow.documentId}
    {d' : DocumentRow} : changeDocument documentId f db = .ok (d', db') ↔
      ∃ d, db.documents.find? documentId = some d ∧ d' = f.apply d ∧
        db' = db.updateDocument documentId f := by
  unfold changeDocument
  split
  · next hnone => simp [hnone]
  · next d hsome => simp [hsome, eq_comm]

theorem insertDocument_eq_ok {d : DocumentRow} (h : db.insertDocument d = .ok db') :
    (∀ old ∈ db.documents.rows, d.clashes old = false) ∧
      ∃ documents, db.documents.insert? d = some documents ∧
        db' = { db with documents := documents } := by
  unfold DocumentDb.insertDocument at h
  split at h
  · cases h
  · next documents hinsert =>
    cases h
    obtain ⟨hapart, hins⟩ := Table.insertApart?_eq_some.1 hinsert
    exact ⟨hapart, documents, hins, rfl⟩

theorem createOrGet_eq_ok {r : IntakeRequest} {x : DocumentRow × Bool}
    (h : createOrGet r db = .ok (x, db')) : db' = db ∨ db.insertDocument r.row = .ok db' := by
  unfold createOrGet at h
  split at h
  · cases h
    exact .inl rfl
  · obtain ⟨db₁, hinsert, hx⟩ := map_eq_ok.1 h
    cases hx
    exact .inr hinsert

theorem insertSource_eq_ok {s : ArchiveSource} (h : db.insertSource s = .ok db') :
    ∃ sources, db' = { db with sources := sources } := by
  simp only [DocumentDb.insertSource, bind_eq_ok, require_eq_ok] at h
  obtain ⟨-, -, h⟩ := h
  split at h
  · cases h
  · next sources _ =>
    cases h
    exact ⟨sources, rfl⟩

theorem insertVersion_eq_ok {v : SourceVersion} (h : db.insertVersion v = .ok db') :
    (∃ d, db.documents.find? v.documentId = some d) ∧
      ∃ versions, db.versions.insert? v = some versions ∧
        db' = { db with versions := versions } := by
  simp only [DocumentDb.insertVersion, bind_eq_ok, require_eq_ok] at h
  obtain ⟨-, hdocument, -, -, h⟩ := h
  split at h
  · cases h
  · next versions hinsert =>
    cases h
    exact ⟨Option.isSome_iff_exists.1 hdocument, versions,
      (Table.insertApart?_eq_some.1 hinsert).2, rfl⟩

/-- A table that has all the rows of another one. -/
def Extends {Row Key : Type} {key : Row → Key} (t t' : Table key) : Prop :=
  ∀ r ∈ t.rows, r ∈ t'.rows

theorem Extends.refl {Row Key : Type} {key : Row → Key} (t : Table key) : Extends t t :=
  fun _ h => h

theorem extends_insert {Row Key : Type} {key : Row → Key} [DecidableEq Key] {t t' : Table key}
    {r : Row} (h : t.insert? r = some t') : Extends t t' :=
  fun _ hr => (Table.mem_insert? h).2 (.inl hr)

theorem Extends.find? {Row Key : Type} {key : Row → Key} [DecidableEq Key] {t t' : Table key}
    (h : Extends t t') {k : Key} {r : Row} (hr : t.find? k = some r) : t'.find? k = some r := by
  obtain ⟨hmem, hkey⟩ := Table.find?_eq_some.1 hr
  exact Table.find?_eq_some.2 ⟨h r hmem, hkey⟩

/-- The reference of the source at the provider, new where there is none. -/
def ReadyRequest.boundRef (r : ReadyRequest) (db : DocumentDb) : Str :=
  ((db.sources.rows.find? fun s => s.provider = r.provider && s.externalId = r.externalId).map
    ArchiveSource.sourceRef).getD r.sourceRef

/-- The version that the document has of the verified original. -/
def ReadyRequest.version? (r : ReadyRequest) (db : DocumentDb) : Option SourceVersion :=
  r.versionOf (r.boundRef db) db

theorem resolveSource_eq_ok {r : ReadyRequest} {sourceRef : Str}
    (h : r.resolveSource db = .ok (sourceRef, db')) :
    sourceRef = r.boundRef db ∧ ∃ sources, db' = { db with sources := sources } := by
  simp only [ReadyRequest.resolveSource, bind_eq_ok, require_eq_ok] at h
  obtain ⟨-, -, h⟩ := h
  split at h
  · next existing hfind =>
    obtain ⟨-, -, h⟩ := bind_eq_ok.1 h
    cases h
    exact ⟨by rw [ReadyRequest.boundRef, hfind]; rfl, db.sources, rfl⟩
  · next hnone =>
    obtain ⟨db₁, hinsert, h⟩ := bind_eq_ok.1 h
    cases h
    exact ⟨by rw [ReadyRequest.boundRef, hnone]; rfl, insertSource_eq_ok hinsert⟩

theorem resolveVersion_eq_ok {r : ReadyRequest} {d : DocumentRow} {sourceRef versionId : Str}
    (h : r.resolveVersion d sourceRef db = .ok (versionId, db')) :
    ∃ versions v, db' = { db with versions := versions } ∧ Extends db.versions versions ∧
      versions.find? versionId = some v ∧ v.documentId = r.documentId ∧
      (r.versionOf sourceRef db = some v ∨
        r.versionOf sourceRef db = none ∧ db.versions.find? versionId = none) := by
  unfold ReadyRequest.resolveVersion at h
  split at h
  · next v hfind =>
    cases h
    have hv := List.find?_some hfind
    simp only [Bool.and_eq_true, decide_eq_true_eq] at hv
    exact ⟨db.versions, v, rfl, Extends.refl _, Table.find?_of_mem (List.mem_of_find?_eq_some hfind),
      hv.1.1, .inl hfind⟩
  · next hnone =>
    obtain ⟨db₁, hinsert, h⟩ := bind_eq_ok.1 h
    cases h
    obtain ⟨-, versions, hins, rfl⟩ := insertVersion_eq_ok hinsert
    have hfound := Table.find?_insert? hins r.sourceVersionId
    rw [if_pos rfl] at hfound
    exact ⟨versions, _, rfl, extends_insert hins, hfound, rfl,
      .inr ⟨hnone, (Table.insert?_eq_some hins).1⟩⟩

/-- The document is selected for one of its versions, old or new. -/
theorem markReady_eq_ok {r : ReadyRequest} {x : DocumentRow}
    (h : markReady r db = .ok (x, db')) :
    (∃ d, db.documents.find? r.documentId = some d) ∧ ∃ sources versions v,
      db' = ({ db with sources := sources, versions := versions }).updateDocument r.documentId
        (r.select (r.boundRef db) v.sourceVersionId) ∧
      Extends db.versions versions ∧ versions.find? v.sourceVersionId = some v ∧
      v.documentId = r.documentId ∧
      (r.version? db = some v ∨
        r.version? db = none ∧ db.versions.find? v.sourceVersionId = none) := by
  unfold markReady at h
  split at h
  · cases h
  · next d hd =>
    obtain ⟨⟨sourceRef, db₁⟩, hsource, h⟩ := bind_eq_ok.1 h
    obtain ⟨⟨versionId, db₂⟩, hversion, h⟩ := bind_eq_ok.1 h
    obtain ⟨rfl, sources, rfl⟩ := resolveSource_eq_ok hsource
    obtain ⟨versions, v, rfl, hextends, hv, hof, hselected⟩ := resolveVersion_eq_ok hversion
    obtain ⟨-, -, -, rfl⟩ := changeDocument_eq_ok.1 h
    obtain rfl : v.sourceVersionId = versionId := Table.key_of_find? hv
    exact ⟨⟨d, hd⟩, sources, versions, v, rfl, hextends, hv, hof, hselected⟩

theorem recordPresent_eq_ok {r : OriginRequest} {documentId : Str}
    (h : db.recordPresent r documentId = .ok db') :
    ∃ snapshots, db' = { db with snapshots := snapshots } := by
  simp only [DocumentDb.recordPresent, bind_eq_ok, require_eq_ok] at h
  obtain ⟨-, -, h⟩ := h
  cases h
  exact ⟨_, rfl⟩

theorem createOrigin_eq_ok {r : OriginRequest} (h : r.createOrigin db = .ok db') :
    ∃ documents sources versions, db.documents.insert? r.row = some documents ∧
      db.versions.insert? (r.version r.documentId r.sourceRef) = some versions ∧
      db' = { db with documents := documents, sources := sources, versions := versions } := by
  simp only [OriginRequest.createOrigin, bind_eq_ok, require_eq_ok] at h
  obtain ⟨-, -, db₁, hdocument, db₂, hsource, hversion⟩ := h
  obtain ⟨-, documents, hins, rfl⟩ := insertDocument_eq_ok hdocument
  obtain ⟨sources, rfl⟩ := insertSource_eq_ok hsource
  obtain ⟨-, versions, hvins, rfl⟩ := insertVersion_eq_ok hversion
  exact ⟨documents, sources, versions, hins, hvins, rfl⟩

theorem refreshOrigin_eq_ok {r : OriginRequest} {d : DocumentRow}
    (h : r.refreshOrigin d db = .ok db') :
    (d.sha256 ≠ r.sha256 ∧ ∃ sources versions,
      db.versions.insert? (r.version d.documentId (d.sourceRef.getD "None")) = some versions ∧
      db' = ({ db with sources := sources, versions := versions }).updateDocument d.documentId
        r.replaceOriginal) ∨
    (d.sha256 = r.sha256 ∧ db' = db.updateDocument d.documentId r.rediscover) := by
  unfold OriginRequest.refreshOrigin at h
  by_cases hsame : d.sha256 = r.sha256
  · rw [if_neg (not_not.2 hsame)] at h
    cases h
    exact .inr ⟨hsame, rfl⟩
  · rw [if_pos hsame] at h
    simp only [bind_eq_ok, require_eq_ok] at h
    obtain ⟨db₁, hversion, -, -, h⟩ := h
    obtain ⟨-, versions, hins, rfl⟩ := insertVersion_eq_ok hversion
    cases h
    refine .inl ⟨hsame, db.sources.update (fun s => s.sourceRef = d.sourceRef.getD "None")
      { apply := fun s => { s with verifiedSha256 := r.sha256, verifiedAt := r.observedAt } },
      versions, hins, rfl⟩

/-- A new document, a new original of a known one, or the original as it was. -/
theorem reconcileDiscoveredOrigin_eq_ok {existing : Option DocumentRow} {r : OriginRequest}
    {x : DocumentRow × Bool} (h : reconcileDiscoveredOrigin existing r db = .ok (x, db')) :
    (existing = none ∧ ∃ documents sources versions snapshots,
      db.documents.insert? r.row = some documents ∧
      db.versions.insert? (r.version r.documentId r.sourceRef) = some versions ∧
      db' = { db with
        documents := documents, sources := sources, versions := versions
        snapshots := snapshots }) ∨
    (∃ d sources versions snapshots, existing = some d ∧ d.sha256 ≠ r.sha256 ∧
      db.versions.insert? (r.version d.documentId (d.sourceRef.getD "None")) = some versions ∧
      db' = ({ db with
        sources := sources, versions := versions, snapshots := snapshots }).updateDocument
          d.documentId r.replaceOriginal) ∨
    (∃ d snapshots, existing = some d ∧ d.sha256 = r.sha256 ∧
      db' = ({ db with snapshots := snapshots }).updateDocument d.documentId r.rediscover) := by
  simp only [reconcileDiscoveredOrigin, bind_eq_ok, require_eq_ok] at h
  obtain ⟨-, -, db₁, hwrite, db₂, hrecord, h⟩ := h
  obtain ⟨snapshots, rfl⟩ := recordPresent_eq_ok hrecord
  split at h
  · cases h
  · cases h
    cases existing with
    | none =>
      obtain ⟨documents, sources, versions, hins, hvins, rfl⟩ := createOrigin_eq_ok hwrite
      exact .inl ⟨rfl, documents, sources, versions, snapshots, hins, hvins, rfl⟩
    | some d =>
      rcases refreshOrigin_eq_ok hwrite with ⟨hchanged, sources, versions, hins, rfl⟩ | ⟨hsame, rfl⟩
      · exact .inr (.inl ⟨d, sources, versions, snapshots, rfl, hchanged, hins, rfl⟩)
      · exact .inr (.inr ⟨d, snapshots, rfl, hsame, rfl⟩)

end Archive

section Runs

variable {db db' : DocumentDb}

theorem reserveToolOperation_eq_ok [PythonText] {i : ToolIdentity} {targetRef createdAt : Str}
    {x : Option Str} (h : reserveToolOperation i targetRef createdAt db = .ok (x, db')) :
    ∃ operations, db' = { db with toolOperations := operations } := by
  unfold reserveToolOperation at h
  split at h
  · obtain ⟨-, -, h⟩ := bind_eq_ok.1 h
    cases h
    exact ⟨db.toolOperations, rfl⟩
  · obtain ⟨-, -, h⟩ := bind_eq_ok.1 h
    split at h
    · simp only [bind_eq_ok] at h
      obtain ⟨-, -, -, -, h⟩ := h
      cases h
      exact ⟨db.toolOperations, rfl⟩
    · split at h
      · cases h
      · next operations _ =>
        cases h
        exact ⟨operations, rfl⟩

theorem completeToolOperation_eq_ok {i : ToolIdentity} {resultRef completedAt : Str} {x : Unit}
    (h : completeToolOperation i resultRef completedAt db = .ok (x, db')) :
    ∃ operations, db' = { db with toolOperations := operations } := by
  unfold completeToolOperation at h
  split at h
  · cases h
    exact ⟨db.toolOperations, rfl⟩
  · split at h
    · next operations _ =>
      cases h
      exact ⟨operations, rfl⟩
    · cases h

theorem insertRun_eq_ok {run : ProcessingRun} (h : db.insertRun run = .ok db') :
    ∃ runs, (runs = db.runs ∨ db.runs.insert? run = some runs ∧
      ∃ v, db.versions.find? run.sourceVersionId = some v) ∧ db' = { db with runs := runs } := by
  unfold DocumentDb.insertRun at h
  split at h
  · cases h
    exact ⟨db.runs, .inl rfl, rfl⟩
  · next runs hinsert =>
    simp only [bind_eq_ok, require_eq_ok] at h
    obtain ⟨-, -, -, hversion, -, -, h⟩ := h
    cases h
    exact ⟨runs, .inr ⟨(Table.insertApart?_eq_some.1 hinsert).2,
      Option.isSome_iff_exists.1 hversion⟩, rfl⟩

/-- A replay, or a run that is new or was requested before and a document that waits. -/
theorem createProcessingRun_eq_ok [PythonText] {seen : Option DocumentRow} {r : RunRequest}
    {x : ProcessingRun × Bool} (h : createProcessingRun seen r db = .ok (x, db')) :
    (∃ operations, db' = { db with toolOperations := operations }) ∨
    ∃ sourceVersionId runs operations,
      (runs = db.runs ∨ db.runs.insert? (r.row sourceVersionId) = some runs ∧
        ∃ v, db.versions.find? sourceVersionId = some v) ∧
      db' = ({ db with runs := runs, toolOperations := operations }).updateDocument r.documentId
        (queueDocument r.observedAt) := by
  unfold createProcessingRun at h
  split at h
  · cases h
  · next sourceVersionId _ =>
    obtain ⟨⟨reserved, db₁⟩, hreserve, h⟩ := bind_eq_ok.1 h
    obtain ⟨operations, rfl⟩ := reserveToolOperation_eq_ok hreserve
    dsimp only at h
    split at h
    · split at h
      · cases h
      · cases h
        exact .inl ⟨operations, rfl⟩
    · obtain ⟨db₂, hinsert, h⟩ := bind_eq_ok.1 h
      obtain ⟨runs, hruns, rfl⟩ := insertRun_eq_ok hinsert
      split at h
      · cases h
      · obtain ⟨⟨u, db₃⟩, hcomplete, h⟩ := bind_eq_ok.1 h
        obtain ⟨operations', rfl⟩ := completeToolOperation_eq_ok hcomplete
        cases h
        exact .inr ⟨sourceVersionId, runs, operations', hruns, rfl⟩

/-- The run is taken unless it is closed; a closed one passes under its own token. -/
theorem beginProcessingRun_eq_ok {runId : Str} {token : Int} {observedAt : Str}
    {x : ProcessingRun} (h : beginProcessingRun runId token observedAt db = .ok (x, db')) :
    ∃ run, db.runs.find? runId = some run ∧
      x = (if run.beginnable token then (beginRun token observedAt).apply run else run) ∧
      x.fencingToken = token ∧
      db' = ({ db with runs := (db.runs.updateKey runId (ProcessingRun.beginnable token)
          (beginRun token observedAt)).2 }).updateDocument run.documentId
        { apply := fun d => { d with processingState := .processing, updatedAt := observedAt } } := by
  unfold beginProcessingRun at h
  dsimp only at h
  split at h
  · cases h
  · next found hfind =>
    split at h
    · cases h
    · next htoken =>
      cases h
      rw [Table.find?_updateKey] at hfind
      obtain ⟨run, hrun, hfound⟩ := Option.map_eq_some_iff.1 hfind
      simp only [true_and] at hfound
      refine ⟨run, hrun, hfound.symm, not_not.1 htoken, ?_⟩
      have hdocument : x.documentId = run.documentId := by
        rw [← hfound]
        by_cases hbegin : run.beginnable token = true
        · rw [if_pos hbegin]
          rfl
        · rw [if_neg hbegin]
      rw [hdocument]

/-- Only the worker that holds the run closes it. -/
theorem finishProcessingRun_eq_ok {r : FinishRequest} {x : ProcessingRun}
    (h : finishProcessingRun r db = .ok (x, db')) :
    r.state.terminal = true ∧ ∃ run, db.runs.find? r.runId = some run ∧
      run.heldBy r.token = true ∧ x = r.close.apply run ∧
      db' = ({ db with runs := (db.runs.updateKey r.runId (ProcessingRun.heldBy r.token)
          r.close).2 }).updateDocument run.documentId r.settle := by
  simp only [finishProcessingRun, bind_eq_ok, require_eq_ok] at h
  obtain ⟨-, hterminal, h⟩ := h
  refine ⟨hterminal, ?_⟩
  split at h
  · cases h
  · next runs hupdate =>
    obtain ⟨run, hrun, hheld⟩ := Table.updateKey_fst.1 (congrArg Prod.fst hupdate)
    have hruns : (db.runs.updateKey r.runId (ProcessingRun.heldBy r.token) r.close).2 = runs :=
      congrArg Prod.snd hupdate
    split at h
    · cases h
    · next found hfind =>
      rw [← hruns, Table.find?_updateKey, hrun, Option.map_some] at hfind
      simp only [true_and, if_pos hheld, Option.some.injEq] at hfind
      cases h
      refine ⟨run, hrun, hheld, hfind.symm, ?_⟩
      rw [hruns, ← hfind]
      rfl

end Runs

section Enrichment

variable {db db' : DocumentDb}

theorem insertClassification_eq_ok {c : Classification}
    (h : db.insertClassification c = .ok db') :
    ∃ classifications, db' = { db with classifications := classifications } := by
  unfold DocumentDb.insertClassification at h
  split at h
  · cases h
    exact ⟨db.classifications, rfl⟩
  · split at h
    · cases h
    · next classifications _ =>
      simp only [bind_eq_ok, require_eq_ok] at h
      obtain ⟨-, -, -, -, h⟩ := h
      cases h
      exact ⟨classifications, rfl⟩

theorem insertCandidates_eq_ok [PythonText] {r : ClassificationRequest}
    {human : Option DocumentClass} {candidates : List ClassificationCandidate}
    {rows rows' : List Classification}
    (h : candidates.foldlM (r.insertCandidate human) (rows, db) = .ok (rows', db')) :
    ∃ classifications, db' = { db with classifications := classifications } := by
  induction candidates generalizing rows db with
  | nil =>
    cases h
    exact ⟨_, rfl⟩
  | cons c candidates ih =>
    rw [List.foldlM_cons] at h
    obtain ⟨⟨rows₁, db₁⟩, hfirst, hrest⟩ := bind_eq_ok.1 h
    simp only [ClassificationRequest.insertCandidate, bind_eq_ok] at hfirst
    obtain ⟨itemHash, -, db₂, hinsert, hfirst⟩ := hfirst
    obtain ⟨classifications, rfl⟩ := insertClassification_eq_ok hinsert
    cases hfirst
    obtain ⟨classifications', rfl⟩ := ih hrest
    exact ⟨classifications', rfl⟩

theorem appendClassification_eq_ok [PythonText] {r : ClassificationRequest}
    {x : List Classification} (h : appendClassification r db = .ok (x, db')) :
    ∃ classifications, db' = { db with
      classifications := classifications
      documents := db.documents.update r.targets
        (r.classify (db.humanLabel r.documentId r.sourceVersionId)) } := by
  simp only [appendClassification, bind_eq_ok, require_eq_ok] at h
  obtain ⟨-, -, ⟨rows, db₁⟩, hfold, h⟩ := h
  obtain ⟨classifications, rfl⟩ := insertCandidates_eq_ok hfold
  cases h
  exact ⟨classifications, rfl⟩

theorem markProtectedPending_eq_ok {r : ProtectRequest} {x : DocumentRow}
    (h : markProtectedPending r db = .ok (x, db')) :
    ∃ d messages, db.documents.find? r.documentId = some d ∧ x = r.withhold.apply d ∧
      db' = ({ db with stageMessages := messages }).updateDocument r.documentId r.withhold := by
  simp only [markProtectedPending, bind_eq_ok, require_eq_ok] at h
  obtain ⟨⟨d', db₁⟩, hchange, -, -, h⟩ := h
  obtain ⟨d, hd, rfl, rfl⟩ := changeDocument_eq_ok.1 hchange
  split at h
  · cases h
  · next messages _ =>
    cases h
    exact ⟨d, messages, hd, rfl, rfl⟩

end Enrichment

end HardyAI.Documents
