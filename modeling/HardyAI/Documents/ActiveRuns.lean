import HardyAI.Documents.Frames

/-! The active run of a document is a run of its active source version, as long as no call
finishes a run of another version or selects another version beneath an active run. -/

open Foundation Foundation.Json Foundation.Trace

namespace HardyAI.Documents

section Rows

/-- The run that is active belongs to the document and its active version, and processing
is complete with a complete active run only. -/
structure DocumentRow.Current (runs : Table ProcessingRun.runId) (d : DocumentRow) : Prop where
  active : ∀ id, d.activeRunId = some id → ∃ run, runs.find? id = some run ∧
    run.documentId = d.documentId ∧ d.activeSourceVersionId = some run.sourceVersionId
  complete : d.processingState = .complete → ∃ id run, d.activeRunId = some id ∧
    runs.find? id = some run ∧ run.status = .complete ∧
      d.activeSourceVersionId = some run.sourceVersionId

/-- Runs keep their document and version, and complete ones stay complete. -/
def RunsKept (runs runs' : Table ProcessingRun.runId) : Prop :=
  ∀ id run, runs.find? id = some run → ∃ run', runs'.find? id = some run' ∧
    run'.documentId = run.documentId ∧ run'.sourceVersionId = run.sourceVersionId ∧
      (run.status = .complete → run'.status = .complete)

variable {runs runs' : Table ProcessingRun.runId} {d d' : DocumentRow}

theorem RunsKept.refl (runs : Table ProcessingRun.runId) : RunsKept runs runs :=
  fun _ run h => ⟨run, h, rfl, rfl, id⟩

theorem runsKept_insert {run : ProcessingRun} (h : runs.insert? run = some runs') :
    RunsKept runs runs' :=
  fun _ old hold => ⟨old, (extends_insert h).find? hold, rfl, rfl, id⟩

theorem runsKept_updateKey {runId : Str} {g : ProcessingRun → Bool}
    {f : Table.Assignment ProcessingRun.runId}
    (hdocument : ∀ run, (f.apply run).documentId = run.documentId)
    (hversion : ∀ run, (f.apply run).sourceVersionId = run.sourceVersionId)
    (hstatus : ∀ run, g run = true → run.status = .complete → (f.apply run).status = .complete) :
    RunsKept runs (runs.updateKey runId g f).2 := by
  intro id run hrun
  refine ⟨if id = runId ∧ g run = true then f.apply run else run, ?_, ?_⟩
  · rw [Table.find?_updateKey, hrun, Option.map_some]
  · by_cases hwritten : id = runId ∧ g run = true
    · rw [if_pos hwritten]
      exact ⟨hdocument run, hversion run, hstatus run hwritten.2⟩
    · rw [if_neg hwritten]
      exact ⟨rfl, rfl, fun h => h⟩

theorem DocumentRow.Current.mono (h : d.Current runs) (hkept : RunsKept runs runs') :
    d.Current runs' := by
  constructor
  · intro id hid
    obtain ⟨run, hrun, hdocument, hversion⟩ := h.active id hid
    obtain ⟨run', hrun', hdocument', hversion', -⟩ := hkept id run hrun
    exact ⟨run', hrun', hdocument'.trans hdocument, by rw [hversion, hversion']⟩
  · intro hcomplete
    obtain ⟨id, run, hid, hrun, hstatus, hversion⟩ := h.complete hcomplete
    obtain ⟨run', hrun', -, hversion', hstatus'⟩ := hkept id run hrun
    exact ⟨id, run', hid, hrun', hstatus' hstatus, by rw [hversion, hversion']⟩

/-- The columns that the active run depends on. -/
def DocumentRow.selection (d : DocumentRow) : Str × Option Str × Option Str :=
  (d.documentId, d.activeSourceVersionId, d.activeRunId)

theorem DocumentRow.Current.of_selection (h : d.Current runs) (hsame : d'.selection = d.selection)
    (hcomplete : d'.processingState = .complete → d.processingState = .complete) :
    d'.Current runs := by
  simp only [selection, Prod.mk.injEq] at hsame
  obtain ⟨hid, hversion, hactive⟩ := hsame
  constructor
  · intro id h'
    rw [hid, hversion]
    exact h.active id (hactive ▸ h')
  · intro h'
    rw [hversion, hactive]
    exact h.complete (hcomplete h')

/-- A document that has no active run and is not complete. -/
theorem current_of_inactive (hactive : d.activeRunId = none)
    (hcomplete : d.processingState ≠ .complete) : d.Current runs := by
  constructor
  · intro id hid
    rw [hactive] at hid
    cases hid
  · exact fun h => absurd h hcomplete

end Rows

section Stores

variable {db db' : DocumentDb}

def DocumentDb.Current (db : DocumentDb) : Prop := ∀ d ∈ db.documents.rows, d.Current db.runs

/-- The foreign key from runs to versions. -/
def DocumentDb.Linked (db : DocumentDb) : Prop :=
  ∀ run ∈ db.runs.rows, ∃ v, db.versions.find? run.sourceVersionId = some v

theorem Undisturbed.current (h : Undisturbed db db') (hcurrent : db.Current) : db'.Current := by
  intro d hd
  rw [h.runs]
  exact hcurrent d (h.documents ▸ hd)

theorem DocumentDb.Current.update {documents : Table DocumentRow.documentId}
    {runs : Table ProcessingRun.runId} (hcurrent : ∀ d ∈ documents.rows, d.Current runs)
    {g : DocumentRow → Bool} {f : Table.Assignment DocumentRow.documentId}
    (hf : ∀ d ∈ documents.rows, g d = true → d.Current runs → (f.apply d).Current runs) :
    ∀ d ∈ (documents.update g f).rows, d.Current runs := by
  intro d hd
  obtain ⟨old, hold, rfl⟩ := Table.mem_update.1 hd
  by_cases hg : g old = true
  · rw [if_pos hg]
    exact hf old hold hg (hcurrent old hold)
  · rw [if_neg hg]
    exact hcurrent old hold

/-- The row of a document after a call that has updated it. -/
theorem mem_updateDocument {documentId : Str} {f : Table.Assignment DocumentRow.documentId}
    {d : DocumentRow} (hd : db.documents.find? documentId = some d) :
    f.apply d ∈ (db.updateDocument documentId f).documents.rows := by
  obtain ⟨hmem, hid⟩ := Table.find?_eq_some.1 hd
  exact Table.mem_update.2 ⟨d, hmem, by simp [hid]⟩

/-- Updates that keep the selection of a row and complete none. -/
structure Neutral (f : Table.Assignment DocumentRow.documentId) : Prop where
  selection : ∀ d, (f.apply d).selection = d.selection
  complete : ∀ d, (f.apply d).processingState = .complete → d.processingState = .complete

theorem DocumentDb.Current.neutral {documents : Table DocumentRow.documentId}
    {runs : Table ProcessingRun.runId} (hcurrent : ∀ d ∈ documents.rows, d.Current runs)
    {g : DocumentRow → Bool} {f : Table.Assignment DocumentRow.documentId} (hf : Neutral f) :
    ∀ d ∈ (documents.update g f).rows, d.Current runs :=
  DocumentDb.Current.update hcurrent fun d _ _ h =>
    h.of_selection (hf.selection d) (hf.complete d)

theorem DocumentDb.Current.insert {documents documents' : Table DocumentRow.documentId}
    {runs : Table ProcessingRun.runId} (hcurrent : ∀ d ∈ documents.rows, d.Current runs)
    {d : DocumentRow} (hins : documents.insert? d = some documents') (hd : d.Current runs) :
    ∀ x ∈ documents'.rows, x.Current runs := by
  intro x hx
  rcases (Table.mem_insert? hins).1 hx with hold | rfl
  · exact hcurrent x hold
  · exact hd

end Stores

section Steps

variable {db db' : DocumentDb}

theorem RunsStep.kept {runs' : Table ProcessingRun.runId} (h : RunsStep db runs') :
    RunsKept db.runs runs' := by
  cases h with
  | same h =>
    rw [h]
    exact .refl _
  | updated runId g f hruns hdocument hversion hwritten =>
    rw [hruns]
    exact runsKept_updateKey hdocument hversion fun run hg hcomplete =>
      absurd hcomplete (hwritten run hg).not_complete
  | inserted run hins hversion => exact runsKept_insert hins

theorem StoreStep.linked (h : StoreStep db db') (hlinked : db.Linked) : db'.Linked := by
  have hold : ∀ run ∈ db.runs.rows, ∃ v, db'.versions.find? run.sourceVersionId = some v := by
    intro run hrun
    obtain ⟨v, hv⟩ := hlinked run hrun
    exact ⟨v, h.versions.find? hv⟩
  intro run hrun
  cases h.runs with
  | same hsame => exact hold run (hsame ▸ hrun)
  | updated runId g f hruns hdocument hversion hwritten =>
    rw [hruns] at hrun
    obtain ⟨old, hmem, rfl⟩ := Table.mem_update.1 hrun
    obtain ⟨v, hv⟩ := hold old hmem
    refine ⟨v, ?_⟩
    split
    · rw [hversion]
      exact hv
    · exact hv
  | inserted new hins hversion =>
    rcases (Table.mem_insert? hins).1 hrun with hmem | rfl
    · exact hold run hmem
    · obtain ⟨v, hv⟩ := hversion
      exact ⟨v, h.versions.find? hv⟩

end Steps

section Conditions

/-- What keeps the active run current: the original that is verified beneath an active run is
the one of the active version, and a run that is activated is of the active version. -/
def Call.KeepsActiveRun (db : DocumentDb) : Call → Prop
  | .markReady r => ∀ x, (Documents.markReady r).reply db = .ok x →
    ∀ d, db.documents.find? r.documentId = some d → d.activeRunId ≠ none →
      (r.version? db).map SourceVersion.sourceVersionId = d.activeSourceVersionId
  | .finishProcessingRun r => ∀ x, (Documents.finishProcessingRun r).reply db = .ok x →
    ∀ run d, db.runs.find? r.runId = some run → db.documents.find? run.documentId = some d →
      (r.activate = true → d.activeSourceVersionId = some run.sourceVersionId) ∧
      (r.state = .complete → r.activate = false → ∃ id active, d.activeRunId = some id ∧
        db.runs.find? id = some active ∧ (active.status = .complete ∨ id = r.runId))
  | _ => True

end Conditions

section Preservation

variable {db db' : DocumentDb}

theorem current_commit {α : Type} {t : Transaction DocumentDb α} (hcurrent : db.Current)
    (h : ∀ a s', t db = .ok (a, s') → s'.Current) : (t.commit db).Current :=
  Transaction.commit_of_forall hcurrent h

theorem current_changeDocument {documentId : Str} {f : Table.Assignment DocumentRow.documentId}
    (hf : Neutral f) (hcurrent : db.Current) :
    ((changeDocument documentId f).commit db).Current := by
  refine current_commit hcurrent fun a s' hok => ?_
  obtain ⟨-, -, -, rfl⟩ := changeDocument_eq_ok.1 hok
  exact DocumentDb.Current.neutral hcurrent hf

theorem current_createOrGet (hcurrent : db.Current) (r : IntakeRequest) :
    ((createOrGet r).commit db).Current := by
  refine current_commit hcurrent fun a s' hok => ?_
  rcases createOrGet_eq_ok hok with rfl | hinsert
  · exact hcurrent
  · obtain ⟨-, documents, hins, rfl⟩ := insertDocument_eq_ok hinsert
    exact DocumentDb.Current.insert hcurrent hins (current_of_inactive rfl nofun)

theorem current_reconcile (hcurrent : db.Current) (existing : Option DocumentRow)
    (r : OriginRequest) : ((reconcileDiscoveredOrigin existing r).commit db).Current := by
  refine current_commit hcurrent fun a s' hok => ?_
  rcases reconcileDiscoveredOrigin_eq_ok hok with
    ⟨-, documents, sources, versions, snapshots, hins, -, rfl⟩ |
    ⟨d, sources, versions, snapshots, -, -, -, rfl⟩ | ⟨d, snapshots, -, -, rfl⟩
  · exact DocumentDb.Current.insert hcurrent hins (current_of_inactive rfl nofun)
  · exact DocumentDb.Current.update hcurrent fun d _ _ _ => current_of_inactive rfl nofun
  · exact DocumentDb.Current.neutral hcurrent ⟨fun _ => rfl, fun _ h => h⟩

theorem queueDocument_neutral (observedAt : Str) : Neutral (queueDocument observedAt) := by
  constructor <;> intro d
  · by_cases h : d.processingState = .complete <;> simp [queueDocument, h, DocumentRow.selection]
  · by_cases h : d.processingState = .complete <;> simp [queueDocument, h]

theorem current_createProcessingRun [PythonText] (hcurrent : db.Current)
    (seen : Option DocumentRow) (r : RunRequest) :
    ((createProcessingRun seen r).commit db).Current := by
  have hkept := (storeStep_createProcessingRun db seen r).runs.kept
  rcases hcall : createProcessingRun seen r db with e | ⟨a, s'⟩
  · rw [Transaction.commit_of_error hcall]
    exact hcurrent
  rw [Transaction.commit_of_ok hcall] at hkept ⊢
  have hmoved : ∀ d ∈ db.documents.rows, d.Current s'.runs := fun d hd => (hcurrent d hd).mono hkept
  rcases createProcessingRun_eq_ok hcall with
    ⟨operations, rfl⟩ | ⟨versionId, runs, operations, -, rfl⟩
  · exact hmoved
  · exact DocumentDb.Current.neutral hmoved (queueDocument_neutral r.observedAt)

theorem current_begin (hcurrent : db.Current) (runId : Str) (token : Int) (observedAt : Str) :
    ((beginProcessingRun runId token observedAt).commit db).Current := by
  have hkept := (storeStep_begin db runId token observedAt).runs.kept
  rcases hcall : beginProcessingRun runId token observedAt db with e | ⟨a, s'⟩
  · rw [Transaction.commit_of_error hcall]
    exact hcurrent
  rw [Transaction.commit_of_ok hcall] at hkept ⊢
  have hmoved : ∀ d ∈ db.documents.rows, d.Current s'.runs := fun d hd => (hcurrent d hd).mono hkept
  obtain ⟨run, -, -, -, rfl⟩ := beginProcessingRun_eq_ok hcall
  refine DocumentDb.Current.neutral hmoved ⟨fun _ => rfl, fun d hcomplete => ?_⟩
  have hprocessing : ProcessingState.processing = .complete := hcomplete
  cases hprocessing

/-- A document with an active run is at the version of that run, which exists. -/
theorem active_version (hcurrent : db.Current) (hlinked : db.Linked) {d : DocumentRow}
    (hd : d ∈ db.documents.rows) (hactive : d.activeRunId ≠ none) :
    ∃ id run v, d.activeRunId = some id ∧ db.runs.find? id = some run ∧
      d.activeSourceVersionId = some run.sourceVersionId ∧
      db.versions.find? run.sourceVersionId = some v := by
  obtain ⟨id, hid⟩ := Option.ne_none_iff_exists'.1 hactive
  obtain ⟨run, hrun, -, hversion⟩ := (hcurrent d hd).active id hid
  obtain ⟨v, hv⟩ := hlinked run (Table.mem_of_find? hrun)
  exact ⟨id, run, v, hid, hrun, hversion, hv⟩

/-- The active run stays current exactly where the verified original is of its version. -/
theorem markReady_current_iff (hcurrent : db.Current) (hlinked : db.Linked) (r : ReadyRequest) :
    ((markReady r).commit db).Current ↔ (Call.markReady r).KeepsActiveRun db := by
  rcases hcall : markReady r db with e | ⟨x, db'⟩
  · rw [Transaction.commit_of_error hcall]
    refine iff_of_true hcurrent fun y hy => ?_
    rw [Transaction.reply_eq_ok, hcall] at hy
    cases hy
  · rw [Transaction.commit_of_ok hcall]
    obtain ⟨-, sources, versions, v, rfl, -, -, -, hselected⟩ := markReady_eq_ok hcall
    constructor
    · intro hafter y hy d hd hactive
      obtain ⟨id, run, w, hid, hrun, hversion, hw⟩ :=
        active_version hcurrent hlinked (Table.mem_of_find? hd) hactive
      obtain ⟨run', hrun', -, hversion'⟩ := (hafter _ (mem_updateDocument hd)).active id hid
      have hsame : run = run' := Option.some.inj (hrun.symm.trans hrun')
      have hv : v.sourceVersionId = run.sourceVersionId := by
        rw [hsame]
        exact Option.some.inj hversion'
      rcases hselected with hfound | ⟨-, hfresh⟩
      · rw [hfound, hversion, Option.map_some, hv]
      · rw [hv, hw] at hfresh
        cases hfresh
    · intro hkeeps
      refine DocumentDb.Current.update hcurrent fun d hd hid hold => ?_
      have hof : d.documentId = r.documentId := of_decide_eq_true hid
      by_cases hactive : d.activeRunId = none
      · refine current_of_inactive hactive fun hcomplete => ?_
        obtain ⟨id, -, hid, -⟩ := hold.complete hcomplete
        rw [hactive] at hid
        cases hid
      · have hversion := hkeeps x (Transaction.reply_eq_ok.2 (by
          rw [hcall, Transaction.commit_of_ok hcall])) d (hof ▸ Table.find?_of_mem hd) hactive
        have hv : some v.sourceVersionId = d.activeSourceVersionId := by
          rcases hselected with hfound | ⟨hnone, -⟩
          · rw [← hversion, hfound, Option.map_some]
          · obtain ⟨id, run, w, -, -, hsome, -⟩ := active_version hcurrent hlinked hd hactive
            rw [hnone, hsome] at hversion
            cases hversion
        refine hold.of_selection ?_ fun h => h
        rw [DocumentRow.selection, DocumentRow.selection, ← hv]
        rfl

/-- A finished run leaves the document current exactly where it was of the active version. -/
theorem finish_current_iff (hcurrent : db.Current) (r : FinishRequest) :
    ((finishProcessingRun r).commit db).Current ↔
      (Call.finishProcessingRun r).KeepsActiveRun db := by
  have hkept := (storeStep_finish db r).runs.kept
  rcases hcall : finishProcessingRun r db with e | ⟨x, db'⟩
  · rw [Transaction.commit_of_error hcall]
    refine iff_of_true hcurrent fun y hy => ?_
    rw [Transaction.reply_eq_ok, hcall] at hy
    cases hy
  · rw [Transaction.commit_of_ok hcall] at hkept ⊢
    obtain ⟨-, run, hrun, hheld, rfl, rfl⟩ := finishProcessingRun_eq_ok hcall
    have hclosed : ∀ id, (db.runs.updateKey r.runId (ProcessingRun.heldBy r.token) r.close).2.find? id =
        (db.runs.find? id).map fun old => if id = r.runId ∧ old.heldBy r.token = true then
          r.close.apply old else old := Table.find?_updateKey db.runs r.runId
    have hfinished : (db.runs.updateKey r.runId (ProcessingRun.heldBy r.token) r.close).2.find?
        r.runId = some (r.close.apply run) := by
      rw [hclosed, hrun, Option.map_some, if_pos ⟨rfl, hheld⟩]
    constructor
    · intro hafter y hy run' d hrun' hd
      obtain rfl : run = run' := Option.some.inj (hrun.symm.trans hrun')
      have hrow := hafter _ (mem_updateDocument hd)
      constructor
      · intro hactivate
        have hactive : (r.settle.apply d).activeRunId = some r.runId := by
          simp only [FinishRequest.settle, hactivate, if_true]
        obtain ⟨closed, hfound, -, hversion⟩ := hrow.active r.runId hactive
        obtain rfl := Option.some.inj (hfinished.symm.trans hfound)
        exact hversion
      · intro hcomplete hactivate
        obtain ⟨id, closed, hid, hfound, hstatus, -⟩ := hrow.complete hcomplete
        have hactive : d.activeRunId = some id := by
          simpa [FinishRequest.settle, hactivate] using hid
        refine ⟨id, ?_⟩
        change (db.runs.updateKey r.runId (ProcessingRun.heldBy r.token) r.close).2.find? id = _
          at hfound
        rw [hclosed] at hfound
        obtain ⟨old, hold, hclose⟩ := Option.map_eq_some_iff.1 hfound
        refine ⟨old, hactive, hold, ?_⟩
        by_cases hthis : id = r.runId
        · exact .inr hthis
        · rw [if_neg fun h => hthis h.1] at hclose
          exact .inl (hclose ▸ hstatus)
    · intro hkeeps
      have hreply := hkeeps (r.close.apply run) (Transaction.reply_eq_ok.2 (by
        rw [hcall, Transaction.commit_of_ok hcall])) run
      have hmoved : ∀ d ∈ db.documents.rows, d.Current
          (db.runs.updateKey r.runId (ProcessingRun.heldBy r.token) r.close).2 :=
        fun d hd => (hcurrent d hd).mono hkept
      refine DocumentDb.Current.update hmoved fun d hd hid hold => ?_
      have hof : d.documentId = run.documentId := of_decide_eq_true hid
      obtain ⟨hactivated, hcompleted⟩ := hreply d hrun (hof ▸ Table.find?_of_mem hd)
      by_cases hactivate : r.activate = true
      · have hactive : (r.settle.apply d).activeRunId = some r.runId := by
          simp only [FinishRequest.settle, hactivate, if_true]
        constructor
        · intro id h
          obtain rfl := Option.some.inj (hactive.symm.trans h)
          exact ⟨r.close.apply run, hfinished, hof.symm, hactivated hactivate⟩
        · intro hcomplete
          exact ⟨r.runId, r.close.apply run, hactive, hfinished, hcomplete, hactivated hactivate⟩
      · have hactive : (r.settle.apply d).activeRunId = d.activeRunId := by
          simp only [FinishRequest.settle, hactivate, if_false, Bool.false_eq_true]
        constructor
        · intro id h
          exact hold.active id (hactive ▸ h)
        · intro hcomplete
          obtain ⟨id, active, hid, hfound, hstatus⟩ :=
            hcompleted hcomplete (Bool.eq_false_iff.2 hactivate)
          obtain ⟨active', hfound', -, hversion⟩ := hold.active id hid
          refine ⟨id, active', hactive.trans hid, hfound', ?_, hversion⟩
          rcases hstatus with hstatus | rfl
          · obtain ⟨kept, hkept', -, -, hcompleted'⟩ := hkept id active hfound
            obtain rfl := Option.some.inj (hkept'.symm.trans hfound')
            exact hcompleted' hstatus
          · obtain rfl := Option.some.inj (hfinished.symm.trans hfound')
            exact hcomplete

variable [PythonText] [FieldText]

theorem current_iff (hlinked : db.Linked) (hcurrent : db.Current) (c : Call) :
    (c.commit db).Current ↔ c.KeepsActiveRun db := by
  by_cases hquiet : c.quiet = true
  · refine iff_of_true ((quiet_undisturbed db hquiet).current hcurrent) ?_
    cases c <;> trivial
  have hruns := (storeStep db c).runs.kept
  cases c with
  | createOrGet r => exact iff_of_true (current_createOrGet hcurrent r) trivial
  | markEnqueued documentId durableJobId observedAt =>
    exact iff_of_true (current_changeDocument ⟨fun _ => rfl, fun _ h => h⟩ hcurrent) trivial
  | markArchiving documentId taskRef observedAt =>
    exact iff_of_true (current_changeDocument ⟨fun _ => rfl, fun _ h => h⟩ hcurrent) trivial
  | markFailure documentId errorCode terminal observedAt =>
    exact iff_of_true (current_changeDocument ⟨fun _ => rfl, fun _ h => h⟩ hcurrent) trivial
  | markReady r => exact markReady_current_iff hcurrent hlinked r
  | clearSpool documentId expectedSpoolKey observedAt =>
    exact iff_of_true (current_changeDocument ⟨fun _ => rfl, fun _ h => h⟩ hcurrent) trivial
  | reconcileDiscoveredOrigin existing r =>
    exact iff_of_true (current_reconcile hcurrent existing r) trivial
  | markMissingProviderOrigins provider observedAt =>
    exact iff_of_true (DocumentDb.Current.neutral hcurrent ⟨fun _ => rfl, fun _ h => h⟩) trivial
  | createProcessingRun seen r =>
    exact iff_of_true (current_createProcessingRun hcurrent seen r) trivial
  | beginProcessingRun runId token observedAt =>
    exact iff_of_true (current_begin hcurrent runId token observedAt) trivial
  | setProcessingOperation runId token operationRef observedAt =>
    exact iff_of_true (fun d hd => (hcurrent d hd).mono hruns) trivial
  | clearProcessingOperation runId token expectedRef observedAt =>
    exact iff_of_true (fun d hd => (hcurrent d hd).mono hruns) trivial
  | finishProcessingRun r => exact finish_current_iff hcurrent r
  | appendClassification r =>
    refine iff_of_true (current_commit hcurrent fun a s' hok => ?_) trivial
    obtain ⟨classifications, rfl⟩ := appendClassification_eq_ok hok
    exact DocumentDb.Current.neutral hcurrent ⟨fun _ => rfl, fun _ h => h⟩
  | markProtectedPending r =>
    refine iff_of_true (current_commit hcurrent fun a s' hok => ?_) trivial
    obtain ⟨d, messages, -, -, rfl⟩ := markProtectedPending_eq_ok hok
    exact DocumentDb.Current.neutral hcurrent ⟨fun _ => rfl, fun _ h => h⟩
  | setArchiveTextVisibility documentId visible observedAt =>
    exact iff_of_true (current_changeDocument ⟨fun _ => rfl, fun _ h => h⟩ hcurrent) trivial
  | _ => exact absurd rfl hquiet

end Preservation

section Runs

variable [PythonText] [FieldText]

/-- The block is of a complete run of the active version of its document. -/
def DocumentDb.CurrentBlock (db : DocumentDb) (b : Block) : Prop :=
  ∃ d run, db.documents.find? b.documentId = some d ∧ db.runs.find? b.runId = some run ∧
    d.activeRunId = some run.runId ∧ run.status = .complete ∧ run.documentId = d.documentId ∧
    d.activeSourceVersionId = some run.sourceVersionId

/-- The active runs are current, and so is whatever search and evidence return. -/
structure DocumentDb.ReadsCurrent (db : DocumentDb) : Prop where
  documents : db.Current
  search : ∀ ownerId query limit, ∀ h ∈ searchBlocks db ownerId query limit, db.CurrentBlock h.block
  evidence : ∀ documentId ownerId blockId pageNumber limit,
    ∀ h ∈ evidenceBlocks db documentId ownerId blockId pageNumber limit, db.CurrentBlock h.block

omit [PythonText] [FieldText] in
theorem currentBlock_of_hit {db : DocumentDb} (hcurrent : db.Current) {ownerId : Str} {b : Block}
    {h : BlockHit} (hhit : db.hit ownerId b = some h) : db.CurrentBlock h.block := by
  obtain ⟨d, hreadable, rfl⟩ := Option.map_eq_some_iff.1 hhit
  obtain ⟨hd, hread⟩ := Option.filter_eq_some_iff.1 hreadable
  simp only [Bool.and_eq_true, decide_eq_true_eq] at hread
  obtain ⟨⟨-, hcomplete⟩, hactive⟩ := hread
  have hrow := hcurrent d (Table.mem_of_find? hd)
  obtain ⟨run, hrun, hdocument, hversion⟩ := hrow.active b.runId hactive
  obtain ⟨id, run', hid, hrun', hstatus, -⟩ := hrow.complete hcomplete
  obtain rfl : b.runId = id := Option.some.inj (hactive.symm.trans hid)
  obtain rfl : run = run' := Option.some.inj (hrun.symm.trans hrun')
  exact ⟨d, run, hd, hrun, by rw [Table.key_of_find? hrun, hactive], hstatus, hdocument, hversion⟩

omit [FieldText] in
theorem readsCurrent_iff {db : DocumentDb} : db.ReadsCurrent ↔ db.Current := by
  refine ⟨DocumentDb.ReadsCurrent.documents, fun hcurrent => ⟨hcurrent, ?_, ?_⟩⟩
  · intro ownerId query limit h hh
    unfold searchBlocks at hh
    dsimp only at hh
    split at hh
    · cases hh
    · have hmem := (List.mem_insertionSort _).1 (List.mem_of_mem_take hh)
      obtain ⟨b, -, hhit⟩ := List.mem_filterMap.1 hmem
      exact currentBlock_of_hit hcurrent hhit
  · intro documentId ownerId blockId pageNumber limit h hh
    have hmem := (List.mem_insertionSort _).1 (List.mem_of_mem_take hh)
    obtain ⟨b, -, hhit⟩ := List.mem_filterMap.1 hmem
    exact currentBlock_of_hit hcurrent hhit

/-- The active run is current all along a run exactly where every call keeps it so. -/
theorem active_runs_current (calls : List Call) :
    (∀ pre post, calls = pre ++ post → (run Call.commit ∅ pre).ReadsCurrent) ↔
      ∀ pre c post, calls = pre ++ c :: post → c.KeepsActiveRun (run Call.commit ∅ pre) := by
  have hlinked : DocumentDb.Linked ∅ := fun run hrun => absurd hrun List.not_mem_nil
  have hcurrent : DocumentDb.Current ∅ := fun d hd => absurd hd List.not_mem_nil
  have hinv := @run_invariant_iff _ _ Call.commit DocumentDb.Current DocumentDb.Linked
    (fun db c => c.KeepsActiveRun db) (fun db c => (storeStep db c).linked)
    (fun db c hlinked hcurrent => current_iff hlinked hcurrent c) _ hlinked hcurrent calls
  refine Iff.trans ?_ hinv
  constructor
  · exact fun h pre post hsplit => readsCurrent_iff.1 (h pre post hsplit)
  · exact fun h pre post hsplit => readsCurrent_iff.2 (h pre post hsplit)

end Runs

section Samples

def firstOriginal : OriginRequest where
  provider := "paperless"
  externalId := "7"
  externalVersion := none
  ownerId := "u1"
  title := "Bill"
  originalFilename := "bill.pdf"
  mediaType := "application/pdf"
  sha256 := "a"
  sizeBytes := 10
  observedAt := "t1"
  documentId := "document-1"
  intakeId := "intake-1"
  sourceRef := "source-1"
  sourceVersionId := "version-1"

/-- The original has changed at its origin. -/
def secondOriginal : OriginRequest :=
  { firstOriginal with sha256 := "b", observedAt := "t4", sourceVersionId := "version-2" }

def firstRun : RunRequest where
  documentId := "document-1"
  route := .nativeDocling
  parserName := "docling"
  parserVersion := "1"
  parserImageDigest := none
  configurationSha256 := "c"
  artifactSchemaVersion := "1"
  resourceLane := "cpu"
  fallbackFromRunId := none
  requestKey := none
  identity := ⟨none, none, none⟩
  runId := "run-1"
  observedAt := "t2"

def firstFinish : FinishRequest := ⟨"run-1", 1, .complete, none, true, "t5"⟩

/-- The original is replaced while its run is at work. -/
def replacedCalls : List Call := [
  .reconcileDiscoveredOrigin none firstOriginal,
  .createProcessingRun (some firstOriginal.row) firstRun,
  .beginProcessingRun "run-1" 1 "t3",
  .reconcileDiscoveredOrigin (some firstOriginal.row) secondOriginal]

theorem superseded_run_activated :
    ¬∀ calls : List Call,
      @DocumentDb.ReadsCurrent asciiText (@run _ _ (@Call.commit asciiText plainText) ∅ calls) := by
  intro h
  let db := @run _ _ (@Call.commit asciiText plainText) ∅
    (replacedCalls ++ [.finishProcessingRun firstFinish])
  have hrow : (db.documents.find? "document-1").any (fun d =>
      d.activeRunId = some (text "run-1") && d.activeSourceVersionId = some (text "version-2")) =
        true := by decide +kernel
  have hrun : (db.runs.find? "run-1").any (fun r => r.sourceVersionId = text "version-1") = true := by
    decide +kernel
  obtain ⟨d, hd, hactive⟩ := (Option.any_eq_true _ _).1 hrow
  obtain ⟨r, hr, hversion⟩ := (Option.any_eq_true _ _).1 hrun
  simp only [Bool.and_eq_true, decide_eq_true_eq] at hactive hversion
  obtain ⟨r', hr', -, hsame⟩ :=
    ((@DocumentDb.ReadsCurrent.documents asciiText _ (h _)) d (Table.mem_of_find? hd)).active
      "run-1" hactive.1
  obtain rfl : r = r' := Option.some.inj (hr.symm.trans hr')
  rw [hactive.2, hversion] at hsame
  exact absurd hsame (by decide)

end Samples

end HardyAI.Documents
