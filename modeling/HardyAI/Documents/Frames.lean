import HardyAI.Documents.Calls

/-! What the calls leave alone. -/

open Foundation Foundation.Json

namespace HardyAI.Documents

variable {db db' : DocumentDb}

/-- The documents, their versions and their runs are as they were. -/
structure Undisturbed (db db' : DocumentDb) : Prop where
  documents : db'.documents = db.documents
  versions : db'.versions = db.versions
  runs : db'.runs = db.runs

theorem Undisturbed.refl (db : DocumentDb) : Undisturbed db db := ⟨rfl, rfl, rfl⟩

theorem Undisturbed.trans {db'' : DocumentDb} (h : Undisturbed db db') (h' : Undisturbed db' db'') :
    Undisturbed db db'' :=
  ⟨h'.documents.trans h.documents, h'.versions.trans h.versions, h'.runs.trans h.runs⟩

theorem undisturbed_commit {α : Type} {t : Transaction DocumentDb α}
    (h : ∀ a s', t db = .ok (a, s') → Undisturbed db s') : Undisturbed db (t.commit db) :=
  Transaction.commit_of_forall (.refl db) h

section Processing

theorem insertStage_eq_ok {c : StageCommit} (h : db.insertStage c = .ok db') :
    ∃ commits, db' = { db with stageCommits := commits } := by
  unfold DocumentDb.insertStage at h
  split at h
  · cases h
    exact ⟨db.stageCommits, rfl⟩
  · split at h
    · cases h
    · next commits _ =>
      cases h
      exact ⟨commits, rfl⟩

theorem commitStage_eq_ok {r : StageRequest} {x : Bool} (h : commitStage r db = .ok (x, db')) :
    ∃ run commits, db.runs.find? r.runId = some run ∧ run.heldBy r.token = true ∧
      db' = { db with stageCommits := commits } := by
  unfold commitStage at h
  split at h
  · cases h
  · next run hrun =>
    simp only [bind_eq_ok, require_eq_ok] at h
    obtain ⟨-, hheld, db₁, hinsert, h⟩ := h
    obtain ⟨commits, rfl⟩ := insertStage_eq_ok hinsert
    split at h
    · cases h
    · simp only [bind_eq_ok] at h
      obtain ⟨-, -, h⟩ := h
      cases h
      exact ⟨run, commits, hrun, hheld, rfl⟩

theorem replaceNormalizedProjection_eq_ok {r : ProjectionRequest} {x : Unit}
    (h : replaceNormalizedProjection r db = .ok (x, db')) :
    ∃ run pages blocks tables cells, db.runs.find? r.runId = some run ∧
      run.heldBy r.token = true ∧
      db' = { db with pages := pages, blocks := blocks, tables := tables, cells := cells } := by
  simp only [replaceNormalizedProjection, bind_eq_ok, require_eq_ok] at h
  obtain ⟨-, hheld, pages, -, -, -, ⟨tables, cells⟩, -, -, -, blocks, -, h⟩ := h
  obtain ⟨run, hrun, hheld⟩ := Option.any_eq_true _ _ |>.1 hheld
  cases h
  exact ⟨run, pages, blocks, tables, cells, hrun, hheld, rfl⟩

end Processing

section Fields

variable [PythonText]

omit [PythonText] in
theorem insertObservation_undisturbed {o : FieldObservation}
    (h : db.insertObservation o = .ok db') : Undisturbed db db' := by
  unfold DocumentDb.insertObservation at h
  split at h
  · cases h
    exact .refl _
  · split at h
    · cases h
    · simp only [bind_eq_ok, require_eq_ok] at h
      obtain ⟨-, -, -, -, h⟩ := h
      cases h
      exact ⟨rfl, rfl, rfl⟩

theorem insertItems_undisturbed {r : ObservationRequest} {items : List ObservationItem}
    {rows rows' : List FieldObservation}
    (h : items.foldlM r.insertItem (rows, db) = .ok (rows', db')) : Undisturbed db db' := by
  induction items generalizing rows db with
  | nil =>
    cases h
    exact .refl _
  | cons o items ih =>
    rw [List.foldlM_cons] at h
    obtain ⟨⟨rows₁, db₁⟩, hfirst, hrest⟩ := bind_eq_ok.1 h
    simp only [ObservationRequest.insertItem, bind_eq_ok] at hfirst
    obtain ⟨itemHash, -, db₂, hinsert, hfirst⟩ := hfirst
    cases hfirst
    exact (insertObservation_undisturbed hinsert).trans (ih hrest)

theorem reserve_undisturbed {i : ToolIdentity} {targetRef createdAt : Str} {x : Option Str}
    (h : reserveToolOperation i targetRef createdAt db = .ok (x, db')) : Undisturbed db db' := by
  obtain ⟨operations, rfl⟩ := reserveToolOperation_eq_ok h
  exact ⟨rfl, rfl, rfl⟩

omit [PythonText] in
theorem complete_undisturbed {i : ToolIdentity} {resultRef completedAt : Str} {x : Unit}
    (h : completeToolOperation i resultRef completedAt db = .ok (x, db')) :
    Undisturbed db db' := by
  obtain ⟨operations, rfl⟩ := completeToolOperation_eq_ok h
  exact ⟨rfl, rfl, rfl⟩

omit [PythonText] in
theorem insertDecision_undisturbed {d : FieldDecision} (h : db.insertDecision d = .ok db') :
    Undisturbed db db' := by
  unfold DocumentDb.insertDecision at h
  split at h
  · cases h
    exact .refl _
  · split at h
    · cases h
    · simp only [bind_eq_ok, require_eq_ok] at h
      obtain ⟨-, -, h⟩ := h
      cases h
      exact ⟨rfl, rfl, rfl⟩

theorem record_undisturbed {r : DecisionRequest} {kind : DecisionKind}
    {x : Option FieldDecision × Bool} (h : r.record kind db = .ok (x, db')) :
    Undisturbed db db' := by
  simp only [DecisionRequest.record, bind_eq_ok] at h
  obtain ⟨⟨reserved, db₁⟩, hreserve, h⟩ := h
  have hreserved := reserve_undisturbed hreserve
  dsimp only at h
  split at h
  · split at h
    · cases h
    · cases h
      exact hreserved
  · obtain ⟨db₂, hinsert, h⟩ := bind_eq_ok.1 h
    have hinserted := hreserved.trans (insertDecision_undisturbed hinsert)
    split at h
    · cases h
      exact hinserted
    · obtain ⟨⟨u, db₃⟩, hcomplete, h⟩ := bind_eq_ok.1 h
      cases h
      exact hinserted.trans (complete_undisturbed hcomplete)

theorem recordFieldDecision_undisturbed [FieldText] (r : DecisionRequest) (db : DocumentDb) :
    Undisturbed db (recordFieldDecision r db).2 := by
  unfold recordFieldDecision
  split
  · exact .refl db
  · exact .refl db
  · split
    · exact .refl db
    · next hrecord => exact record_undisturbed hrecord
    · next hrecord => exact record_undisturbed hrecord
    · next hrecord =>
      split
      · exact record_undisturbed hrecord
      · exact record_undisturbed hrecord

omit [PythonText] in
theorem insertRow_undisturbed {r : ConfirmationRequest} {c : Confirmation}
    (h : r.insertRow db c = .ok db') : Undisturbed db db' := by
  simp only [ConfirmationRequest.insertRow, bind_eq_ok, require_eq_ok] at h
  obtain ⟨-, -, h⟩ := h
  split at h
  · cases h
  · cases h
    exact ⟨rfl, rfl, rfl⟩

omit [PythonText] in
theorem insertRows_undisturbed {r : ConfirmationRequest} {cs : List Confirmation}
    (h : cs.foldlM r.insertRow db = .ok db') : Undisturbed db db' := by
  induction cs generalizing db with
  | nil =>
    cases h
    exact .refl _
  | cons c cs ih =>
    rw [List.foldlM_cons] at h
    obtain ⟨db₁, hfirst, hrest⟩ := bind_eq_ok.1 h
    exact (insertRow_undisturbed hfirst).trans (ih hrest)

theorem recordFieldConfirmations_undisturbed {r : ConfirmationRequest}
    {x : List FieldDecision × Bool} (h : recordFieldConfirmations r db = .ok (x, db')) :
    Undisturbed db db' := by
  simp only [recordFieldConfirmations, bind_eq_ok] at h
  obtain ⟨-, -, resultRef, -, ⟨reserved, db₁⟩, hreserve, h⟩ := h
  have hreserved := reserve_undisturbed hreserve
  dsimp only at h
  split at h
  · simp only [bind_eq_ok] at h
    obtain ⟨-, -, rows, -, h⟩ := h
    cases h
    exact hreserved
  · simp only [bind_eq_ok] at h
    obtain ⟨db₂, hwrite, rows, -, h⟩ := h
    cases h
    unfold ConfirmationRequest.write at hwrite
    split at hwrite
    · cases hwrite
    · simp only [bind_eq_ok] at hwrite
      obtain ⟨-, -, -, -, db₃, hrows, ⟨u, db₄⟩, hcomplete, hwrite⟩ := hwrite
      cases hwrite
      exact (hreserved.trans (insertRows_undisturbed hrows)).trans (complete_undisturbed hcomplete)

end Fields

section Metadata

variable [PythonText]

omit [PythonText] in
theorem insertProposal_undisturbed {p : MetadataProposal} (h : db.insertProposal p = .ok db') :
    Undisturbed db db' := by
  unfold DocumentDb.insertProposal at h
  split at h
  · cases h
    exact .refl _
  · split at h
    · cases h
    · simp only [bind_eq_ok, require_eq_ok] at h
      obtain ⟨-, -, h⟩ := h
      cases h
      exact ⟨rfl, rfl, rfl⟩

theorem createMetadataProposal_undisturbed {seen : Option DocumentRow} {r : ProposalRequest}
    {x : MetadataProposal × Bool} (h : createMetadataProposal seen r db = .ok (x, db')) :
    Undisturbed db db' := by
  unfold createMetadataProposal at h
  split at h
  · cases h
  · simp only [bind_eq_ok] at h
    obtain ⟨-, -, encoded, -, -, -, valueHash, -, ⟨reserved, db₁⟩, hreserve, h⟩ := h
    have hreserved := reserve_undisturbed hreserve
    dsimp only at h
    split at h
    · split at h
      · cases h
      · cases h
        exact hreserved
    · obtain ⟨db₂, hinsert, h⟩ := bind_eq_ok.1 h
      split at h
      · cases h
      · obtain ⟨⟨u, db₃⟩, hcomplete, h⟩ := bind_eq_ok.1 h
        cases h
        exact (hreserved.trans (insertProposal_undisturbed hinsert)).trans
          (complete_undisturbed hcomplete)

omit [PythonText] in
theorem beginMetadataSync_undisturbed {r : SyncRequest} {x : Option MetadataSync}
    (h : beginMetadataSync r db = .ok (x, db')) : Undisturbed db db' := by
  obtain ⟨db₁, hinsert, h⟩ := bind_eq_ok.1 h
  cases h
  unfold DocumentDb.insertSync at hinsert
  split at hinsert
  · cases hinsert
    exact .refl _
  · split at hinsert
    · cases hinsert
    · simp only [bind_eq_ok, require_eq_ok] at hinsert
      obtain ⟨-, -, -, -, hinsert⟩ := hinsert
      cases hinsert
      exact ⟨rfl, rfl, rfl⟩

theorem finishMetadataSync_undisturbed {o : SyncOutcome} {x : MetadataSync}
    (h : finishMetadataSync o db = .ok (x, db')) : Undisturbed db db' := by
  unfold finishMetadataSync at h
  split at h
  · cases h
  · dsimp only at h
    split at h
    · cases h
    · cases h
      exact ⟨rfl, rfl, rfl⟩

end Metadata

section Quiet

variable [PythonText] [FieldText]

/-- The calls that write neither documents nor versions nor runs. -/
def Call.quiet : Call → Bool
  | .commitStage _ | .replaceNormalizedProjection _ | .appendFieldObservations _
  | .recordFieldDecision _ | .recordFieldConfirmations _ | .createMetadataProposal _ _
  | .bindMetadataReview _ _ _ _ | .beginMetadataSync _ | .finishMetadataSync _ => true
  | .createOrGet _ | .markEnqueued _ _ _ | .markArchiving _ _ _ | .markFailure _ _ _ _
  | .markReady _ | .clearSpool _ _ _ | .reconcileDiscoveredOrigin _ _
  | .markMissingProviderOrigins _ _ | .createProcessingRun _ _ | .beginProcessingRun _ _ _
  | .setProcessingOperation _ _ _ _ | .clearProcessingOperation _ _ _ _ | .finishProcessingRun _
  | .appendClassification _ | .markProtectedPending _ | .setArchiveTextVisibility _ _ _ => false

theorem quiet_undisturbed (db : DocumentDb) {c : Call} (h : c.quiet = true) :
    Undisturbed db (c.commit db) := by
  cases c with
  | commitStage r =>
    refine undisturbed_commit fun a s' hok => ?_
    obtain ⟨-, commits, -, -, rfl⟩ := commitStage_eq_ok hok
    exact ⟨rfl, rfl, rfl⟩
  | replaceNormalizedProjection r =>
    refine undisturbed_commit fun a s' hok => ?_
    obtain ⟨-, pages, blocks, tables, cells, -, -, rfl⟩ := replaceNormalizedProjection_eq_ok hok
    exact ⟨rfl, rfl, rfl⟩
  | appendFieldObservations r => exact undisturbed_commit fun a s' hok => insertItems_undisturbed hok
  | recordFieldDecision r => exact recordFieldDecision_undisturbed r db
  | recordFieldConfirmations r =>
    exact undisturbed_commit fun a s' hok => recordFieldConfirmations_undisturbed hok
  | createMetadataProposal seen r =>
    exact undisturbed_commit fun a s' hok => createMetadataProposal_undisturbed hok
  | bindMetadataReview documentId proposalId reviewId observedAt =>
    exact ⟨rfl, rfl, rfl⟩
  | beginMetadataSync r => exact undisturbed_commit fun a s' hok => beginMetadataSync_undisturbed hok
  | finishMetadataSync o => exact undisturbed_commit fun a s' hok => finishMetadataSync_undisturbed hok
  | _ => cases h

end Quiet

section Steps

theorem heldBy_not_complete {token : Int} {run : ProcessingRun} (h : run.heldBy token = true) :
    run.status ≠ .complete := by
  simp only [ProcessingRun.heldBy, Bool.and_eq_true, decide_eq_true_eq] at h
  rw [h.2]
  decide

theorem beginnable_not_complete {token : Int} {run : ProcessingRun}
    (h : run.beginnable token = true) : run.status ≠ .complete := by
  simp only [ProcessingRun.beginnable, Bool.and_eq_true, Bool.or_eq_true, decide_eq_true_eq] at h
  rcases h.1 with (h | h) | h <;> rw [h] <;> decide

/-- A run is written by who begins it and by who holds it. -/
inductive RunWritten (run run' : ProcessingRun) : Prop
  | begun (token : Int) (observedAt : Str) (hopen : run.beginnable token = true)
      (h : run' = (beginRun token observedAt).apply run)
  | held (token : Int) (hheld : run.heldBy token = true)
      (h : run'.fencingToken = run.fencingToken)

theorem RunWritten.not_complete {run run' : ProcessingRun} (h : RunWritten run run') :
    run.status ≠ .complete := by
  cases h with
  | begun token observedAt hopen h => exact beginnable_not_complete hopen
  | held token hheld h => exact heldBy_not_complete hheld

/-- What a call can do to the runs. -/
inductive RunsStep (db : DocumentDb) (runs' : Table ProcessingRun.runId) : Prop
  | same (h : runs' = db.runs)
  | updated (runId : Str) (g : ProcessingRun → Bool) (f : Table.Assignment ProcessingRun.runId)
      (hruns : runs' = (db.runs.updateKey runId g f).2)
      (hdocument : ∀ run, (f.apply run).documentId = run.documentId)
      (hversion : ∀ run, (f.apply run).sourceVersionId = run.sourceVersionId)
      (hwritten : ∀ run, g run = true → RunWritten run (f.apply run))
  | inserted (run : ProcessingRun) (hins : db.runs.insert? run = some runs')
      (hversion : ∃ v, db.versions.find? run.sourceVersionId = some v)

/-- What every call does to versions and runs. -/
structure StoreStep (db db' : DocumentDb) : Prop where
  versions : Extends db.versions db'.versions
  runs : RunsStep db db'.runs

theorem StoreStep.of_same (hversions : db'.versions = db.versions) (hruns : db'.runs = db.runs) :
    StoreStep db db' :=
  ⟨by rw [hversions]; exact .refl _, .same hruns⟩

theorem storeStep_commit {α : Type} {t : Transaction DocumentDb α}
    (h : ∀ a s', t db = .ok (a, s') → StoreStep db s') : StoreStep db (t.commit db) :=
  Transaction.commit_of_forall (.of_same rfl rfl) h

theorem storeStep_changeDocument {documentId : Str}
    {f : Table.Assignment DocumentRow.documentId} :
    StoreStep db ((changeDocument documentId f).commit db) := by
  refine storeStep_commit fun a s' hok => ?_
  obtain ⟨-, -, -, rfl⟩ := changeDocument_eq_ok.1 hok
  exact .of_same rfl rfl

theorem storeStep_createOrGet (db : DocumentDb) (r : IntakeRequest) :
    StoreStep db ((createOrGet r).commit db) := by
  refine storeStep_commit fun a s' hok => ?_
  rcases createOrGet_eq_ok hok with rfl | hinsert
  · exact .of_same rfl rfl
  · obtain ⟨-, documents, -, rfl⟩ := insertDocument_eq_ok hinsert
    exact .of_same rfl rfl

theorem storeStep_markReady (db : DocumentDb) (r : ReadyRequest) :
    StoreStep db ((markReady r).commit db) := by
  refine storeStep_commit fun a s' hok => ?_
  obtain ⟨-, sources, versions, v, rfl, hextends, -⟩ := markReady_eq_ok hok
  exact ⟨hextends, .same rfl⟩

theorem storeStep_reconcile (db : DocumentDb) (existing : Option DocumentRow) (r : OriginRequest) :
    StoreStep db ((reconcileDiscoveredOrigin existing r).commit db) := by
  refine storeStep_commit fun a s' hok => ?_
  rcases reconcileDiscoveredOrigin_eq_ok hok with
    ⟨-, documents, sources, versions, snapshots, -, hins, rfl⟩ |
    ⟨d, sources, versions, snapshots, -, -, hins, rfl⟩ | ⟨d, snapshots, -, -, rfl⟩
  · exact ⟨extends_insert hins, .same rfl⟩
  · exact ⟨extends_insert hins, .same rfl⟩
  · exact .of_same rfl rfl

theorem storeStep_createProcessingRun [PythonText] (db : DocumentDb) (seen : Option DocumentRow)
    (r : RunRequest) : StoreStep db ((createProcessingRun seen r).commit db) := by
  refine storeStep_commit fun a s' hok => ?_
  rcases createProcessingRun_eq_ok hok with
    ⟨operations, rfl⟩ | ⟨versionId, runs, operations, hruns, rfl⟩
  · exact .of_same rfl rfl
  · rcases hruns with rfl | ⟨hins, hversion⟩
    · exact .of_same rfl rfl
    · exact ⟨.refl _, .inserted _ hins hversion⟩

theorem storeStep_begin (db : DocumentDb) (runId : Str) (token : Int) (observedAt : Str) :
    StoreStep db ((beginProcessingRun runId token observedAt).commit db) := by
  refine storeStep_commit fun a s' hok => ?_
  obtain ⟨run, -, -, -, rfl⟩ := beginProcessingRun_eq_ok hok
  exact ⟨.refl _, .updated _ _ _ rfl (fun _ => rfl) (fun _ => rfl)
    fun _ hopen => .begun token observedAt hopen rfl⟩

theorem storeStep_finish (db : DocumentDb) (r : FinishRequest) :
    StoreStep db ((finishProcessingRun r).commit db) := by
  refine storeStep_commit fun a s' hok => ?_
  obtain ⟨-, run, -, -, -, rfl⟩ := finishProcessingRun_eq_ok hok
  exact ⟨.refl _, .updated _ _ _ rfl (fun _ => rfl) (fun _ => rfl)
    fun _ hheld => .held r.token hheld rfl⟩

variable [PythonText] [FieldText]

theorem storeStep (db : DocumentDb) (c : Call) : StoreStep db (c.commit db) := by
  by_cases hquiet : c.quiet = true
  · have hsame := quiet_undisturbed db hquiet
    exact .of_same hsame.versions hsame.runs
  cases c with
  | createOrGet r => exact storeStep_createOrGet db r
  | markEnqueued documentId durableJobId observedAt => exact storeStep_changeDocument
  | markArchiving documentId taskRef observedAt => exact storeStep_changeDocument
  | markFailure documentId errorCode terminal observedAt => exact storeStep_changeDocument
  | markReady r => exact storeStep_markReady db r
  | clearSpool documentId expectedSpoolKey observedAt => exact storeStep_changeDocument
  | reconcileDiscoveredOrigin existing r => exact storeStep_reconcile db existing r
  | markMissingProviderOrigins provider observedAt => exact .of_same rfl rfl
  | createProcessingRun seen r => exact storeStep_createProcessingRun db seen r
  | beginProcessingRun runId token observedAt => exact storeStep_begin db runId token observedAt
  | setProcessingOperation runId token operationRef observedAt =>
    exact ⟨.refl _, .updated _ _ _ rfl (fun _ => rfl) (fun _ => rfl)
      fun _ hheld => .held token hheld rfl⟩
  | clearProcessingOperation runId token expectedRef observedAt =>
    exact ⟨.refl _, .updated _ _ _ rfl (fun _ => rfl) (fun _ => rfl)
      fun _ hheld => .held token (Bool.and_eq_true_iff.1 hheld).1 rfl⟩
  | finishProcessingRun r => exact storeStep_finish db r
  | appendClassification r =>
    refine storeStep_commit fun a s' hok => ?_
    obtain ⟨classifications, rfl⟩ := appendClassification_eq_ok hok
    exact .of_same rfl rfl
  | markProtectedPending r =>
    refine storeStep_commit fun a s' hok => ?_
    obtain ⟨d, messages, -, -, rfl⟩ := markProtectedPending_eq_ok hok
    exact .of_same rfl rfl
  | setArchiveTextVisibility documentId visible observedAt => exact storeStep_changeDocument
  | _ => exact absurd rfl hquiet

end Steps

end HardyAI.Documents
