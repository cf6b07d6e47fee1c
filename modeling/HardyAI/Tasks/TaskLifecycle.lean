import HardyAI.Foundation.Trace
import HardyAI.Tasks.TaskRows

/-! The life of a task over every sequence of repository operations: its budgets, its closing
and its generations. -/

open Foundation Foundation.Json Foundation.Trace

namespace HardyAI.Tasks

section Calls

/-- `delete_task`, with the rows that refer to the task. -/
def deleteTask (taskId ownerId : Str) : Transaction TaskDb Bool := fun db => do
  match db.ownedTask? taskId ownerId with
  | none => .ok (false, db)
  | some row =>
    require (row.status ≠ .queued ∧ row.status ≠ .running) (.taskConflictError "task_active")
    .ok (true,
      { db with
        tasks := db.tasks.delete (·.taskId = taskId)
        messages := db.messages.filter (·.taskId ≠ taskId)
        grants := db.grants.filter (·.taskId ≠ taskId)
        effects := db.effects.delete (·.taskId = taskId) })

/-- The operations of the repository that write tasks or what belongs to them. -/
inductive TaskCall
  | createTask (request : TaskRequest) (taskId : Str) (now : Instant)
  | setActiveJob (taskId jobId : Str) (generation : Int) (now : Instant)
  | advanceQueuedGeneration (taskId : Str) (expectedGeneration : Int) (now : Instant)
  | setWorkspaceRef (taskId workspaceRef : Str) (now : Instant)
  | addUserMessage (taskId ownerId : Str) (expectedRevision : Int) (submissionId content : Str)
      (now : Instant)
  | pause (taskId ownerId : Str) (expectedRevision : Int) (now : Instant)
  | cancel (taskId ownerId : Str) (expectedRevision : Int) (now : Instant)
  | continueTask (taskId ownerId : Str) (expectedRevision : Int) (submissionId : Str)
      (addSeconds addModelDecisions addCapabilityCalls : Int) (now : Instant)
  | beginRun (taskId jobId : Str) (generation : Int) (now : Instant)
  | setPlan (taskId planMarkdown progressSummary : Str) (expected : Option Int) (now : Instant)
  | consumeUsage (taskId : Str) (expected activeSeconds modelDecisions capabilityCalls : Int)
      (now : Instant)
  | workerTransition (taskId : Str) (a : TransitionArgs) (expected : Option Int) (now : Instant)
  | appendMessage (message : TaskMessage)
  | reserveEffect (a : EffectReservation) (receiptId : Str) (now : Instant)
  | finishEffect (taskId logicalOperationId : Str) (state : EffectState)
      (result : List (Str × Json)) (now : Instant)
  | savePreference (a : PreferenceArgs) (freshId : Str) (now : Instant)
  | saveSkillRevision (a : SkillArgs) (now : Instant)
  | deleteTask (taskId ownerId : Str)

variable [PythonText]

/-- The store after one call, which a failing call leaves as it was. -/
def TaskCall.commit (db : TaskDb) : TaskCall → TaskDb
  | .createTask request taskId now => (Tasks.createTask request taskId now).commit db
  | .setActiveJob taskId jobId generation now =>
      (Tasks.setActiveJob taskId jobId generation now).commit db
  | .advanceQueuedGeneration taskId generation now =>
      (Tasks.advanceQueuedGeneration taskId generation now).commit db
  | .setWorkspaceRef taskId workspaceRef now =>
      (Tasks.setWorkspaceRef taskId workspaceRef now).commit db
  | .addUserMessage taskId ownerId expected submissionId content now =>
      (Tasks.addUserMessage taskId ownerId expected submissionId content now).commit db
  | .pause taskId ownerId expected now => (Tasks.pause taskId ownerId expected now).commit db
  | .cancel taskId ownerId expected now => (Tasks.cancel taskId ownerId expected now).commit db
  | .continueTask taskId ownerId expected submissionId seconds decisions calls now =>
      (Tasks.continueTask taskId ownerId expected submissionId seconds decisions calls now).commit db
  | .beginRun taskId jobId generation now =>
      (Tasks.beginRun taskId jobId generation now).commit db
  | .setPlan taskId plan summary expected now =>
      (Tasks.setPlan taskId plan summary expected now).commit db
  | .consumeUsage taskId expected seconds decisions calls now =>
      (Tasks.consumeUsage taskId expected seconds decisions calls now).commit db
  | .workerTransition taskId a expected now =>
      (Tasks.workerTransition taskId a expected now).commit db
  | .appendMessage message => (addMessage message).commit db
  | .reserveEffect a receiptId now => (Tasks.reserveEffect a receiptId now).commit db
  | .finishEffect taskId logicalId state result now =>
      (Tasks.finishEffect taskId logicalId state result now).commit db
  | .savePreference a freshId now => (Tasks.savePreference a freshId now).commit db
  | .saveSkillRevision a now => (Tasks.saveSkillRevision a now).commit db
  | .deleteTask taskId ownerId => (Tasks.deleteTask taskId ownerId).commit db

end Calls

section Updates

/-- The limits of a task, which only a grant moves. -/
def AgentTask.limits (t : AgentTask) : Int × Int := (t.modelDecisionsLimit, t.capabilityCallsLimit)

/-- What a call that neither creates nor deletes does to the tasks and their grants. -/
inductive TaskUpdate (Q : Str → TransitionArgs → Prop) (db db' : TaskDb) : Prop
  | kept (htasks : db'.tasks = db.tasks) (hgrants : db'.grants = db.grants)
  | moved (k : Str) (g : AgentTask → Bool) (f : Table.Assignment AgentTask.taskId)
      (htasks : db'.tasks = (db.tasks.updateKey k g f).2) (hgrants : db'.grants = db.grants)
      (hrow : ∀ t, db.task? k = some t → g t = true → RowStep (Q k) t (f.apply t))
      (hlimits : ∀ t, (f.apply t).limits = t.limits)
  | granted (grant : BudgetGrant) (seconds : Int) (now : Str)
      (htasks : db'.tasks = (db.tasks.updateKey grant.taskId (fun _ => true)
        (resume seconds grant.addedModelDecisions grant.addedCapabilityCalls now)).2)
      (hgrants : db'.grants = db.grants ++ [grant])
      (hnonneg : 0 ≤ grant.addedModelDecisions ∧ 0 ≤ grant.addedCapabilityCalls)
      (hnew : ∀ g ∈ db.grants, g.taskId = grant.taskId → g.submissionId ≠ grant.submissionId)
      (hresumable : ∃ t, db.task? grant.taskId = some t ∧ resumable t.status = true)

variable {Q : Str → TransitionArgs → Prop} {db db' : TaskDb} {taskId ownerId jobId : Str}
  {expected generation : Int} {now : Instant}

theorem TaskUpdate.commit {α : Type} {T : Transaction TaskDb α}
    (h : ∀ a db', T db = .ok (a, db') → TaskUpdate Q db db') : TaskUpdate Q db (T.commit db) :=
  Transaction.commit_of_forall (.kept rfl rfl) h

theorem TaskUpdate.of_same (h : SameTasks db db') : TaskUpdate Q db db' := .kept h.1 h.2

theorem setActiveJob_update :
    TaskUpdate Q db ((setActiveJob taskId jobId generation now).commit db) := by
  refine .moved taskId _ _ rfl rfl (fun t _ hg => ?_) fun t => rfl
  simp only [Bool.and_eq_true, decide_eq_true_eq] at hg
  exact .activated jobId (isoUtc now) hg.2

theorem advanceQueuedGeneration_update :
    TaskUpdate Q db ((advanceQueuedGeneration taskId generation now).commit db) := by
  refine .commit fun reply db' h => ?_
  simp only [advanceQueuedGeneration, bind_eq_ok, Except.ok.injEq, Prod.mk.injEq] at h
  obtain ⟨-, -, -, -, -, rfl⟩ := h
  refine .moved taskId _ _ rfl rfl (fun t _ hg => ?_) fun t => rfl
  simp only [Bool.and_eq_true, decide_eq_true_eq] at hg
  exact .advanced (isoUtc now) hg.1

theorem setWorkspaceRef_update {workspaceRef : Str} :
    TaskUpdate Q db ((setWorkspaceRef taskId workspaceRef now).commit db) := by
  refine .commit fun reply db' h => ?_
  simp only [setWorkspaceRef, bind_eq_ok, Except.ok.injEq, Prod.mk.injEq] at h
  obtain ⟨-, -, -, -, -, -, -, rfl⟩ := h
  refine .moved taskId _ _ rfl rfl (fun t _ hg => ?_) fun t => rfl
  simp only [Bool.and_eq_true, decide_eq_true_eq] at hg
  exact .bound (strip workspaceRef) (isoUtc now) hg.1

theorem addUserMessage_update {submissionId content : Str} : TaskUpdate Q db
    ((addUserMessage taskId ownerId expected submissionId content now).commit db) := by
  refine .commit fun ⟨row, fresh⟩ db' h => ?_
  have hgrants : db'.grants = db.grants := by
    simp only [addUserMessage, bind_eq_ok] at h
    obtain ⟨_, -, _, -, h⟩ := h
    split at h
    · simp only [Except.ok.injEq, Prod.mk.injEq] at h
      exact congrArg TaskDb.grants h.2.symm
    · simp only [bind_eq_ok, Except.ok.injEq, Prod.mk.injEq] at h
      obtain ⟨-, -, -, -, -, -, -, rfl⟩ := h
      rfl
  obtain ⟨-, rfl⟩ | ⟨-, old, hold, hopen, htasks⟩ := addUserMessage_spec h
  · exact .kept rfl rfl
  · refine .moved taskId _ _ htasks hgrants (fun t ht _ => ?_) fun t => rfl
    obtain rfl : old = t := Option.some.inj (hold.symm.trans ht)
    exact .steered (isoUtc now) hopen

theorem ownerTransition_update {status : TaskStatus}
    (hstatus : status = .pausedUser ∨ status = .cancelled) :
    TaskUpdate Q db ((ownerTransition taskId ownerId expected status now).commit db) := by
  refine .commit fun row db' h => ?_
  have hgrants : db'.grants = db.grants := by
    simp only [ownerTransition, bind_eq_ok] at h
    obtain ⟨_, -, _, -, h⟩ := h
    split at h
    · simp only [Except.ok.injEq, Prod.mk.injEq] at h
      exact congrArg TaskDb.grants h.2.symm
    · simp only [bind_eq_ok, Except.ok.injEq, Prod.mk.injEq] at h
      obtain ⟨-, -, -, rfl⟩ := h
      rfl
  obtain ⟨old, hold, ⟨-, rfl⟩ | ⟨hopen, htasks⟩⟩ := ownerTransition_spec h
  · exact .kept rfl rfl
  · refine .moved taskId _ _ htasks hgrants (fun t ht _ => ?_) fun t => rfl
    obtain rfl : old = t := Option.some.inj (hold.symm.trans ht)
    exact .ownerMoved status (isoUtc now) hopen hstatus

theorem continueTask_update {submissionId : Str} {seconds decisions calls : Int} :
    TaskUpdate Q db ((continueTask taskId ownerId expected submissionId seconds decisions calls
      now).commit db) := by
  refine .commit fun ⟨row, fresh⟩ db' h => ?_
  simp only [continueTask, bind_eq_ok, ownedTask_eq_ok] at h
  obtain ⟨old, ⟨hold, -⟩, h⟩ := h
  split at h
  · simp only [Except.ok.injEq, Prod.mk.injEq] at h
    obtain ⟨-, rfl⟩ := h
    exact .kept rfl rfl
  · next hnone =>
    simp only [bind_eq_ok, require_eq_ok, Except.ok.injEq, Prod.mk.injEq] at h
    obtain ⟨-, -, -, -, -, hresumable, -, -, -, rfl⟩ := h
    refine .granted ⟨taskId, submissionId, max 0 seconds, max 0 decisions, max 0 calls, ownerId,
      isoUtc now⟩ seconds (isoUtc now) ?_ rfl ⟨le_max_left _ _, le_max_left _ _⟩ ?_
      ⟨old, hold, hresumable⟩
    · simp [resume, TaskDb.updateTask]
    · intro g hg htask hsubmission
      refine hnone (List.any_eq_true.2 ⟨g, hg, ?_⟩)
      simp [htask, hsubmission]

theorem beginRun_update : TaskUpdate Q db ((beginRun taskId jobId generation now).commit db) := by
  refine .moved taskId _ _ rfl rfl (fun t _ hg => ?_) fun t => rfl
  simp only [Bool.and_eq_true, Bool.or_eq_true, decide_eq_true_eq, Option.isNone_iff_eq_none] at hg
  exact .begun jobId (isoUtc now) hg.1.2 hg.2

theorem setPlan_update {plan summary : Str} {expected : Option Int} :
    TaskUpdate Q db ((setPlan taskId plan summary expected now).commit db) := by
  refine .commit fun row db' h => ?_
  obtain ⟨-, plan, summary, rfl⟩ := setPlan_spec h
  exact .moved taskId _ _ rfl rfl
    (fun t _ hg => .planned plan summary (isoUtc now) (runningAt_iff.1 hg).1) fun t => rfl

theorem consumeUsage_update {seconds decisions calls : Int} :
    TaskUpdate Q db ((consumeUsage taskId expected seconds decisions calls now).commit db) := by
  refine .commit fun row db' h => ?_
  obtain ⟨t, ht, hrunning, hdecisions, hcalls, rfl⟩ := consumeUsage_spec h
  refine .moved taskId _ _ rfl rfl (fun t' ht' _ => ?_) fun t => rfl
  obtain rfl : t = t' := Option.some.inj (ht.symm.trans ht')
  exact .charged _ _ _ _ (runningAt_iff.1 hrunning).1 hdecisions hcalls

theorem workerTransition_update {a : TransitionArgs} {expected : Option Int} (ha : Q taskId a) :
    TaskUpdate Q db ((workerTransition taskId a expected now).commit db) := by
  refine .commit fun row db' h => ?_
  obtain ⟨-, rfl⟩ := workerTransition_spec h
  exact .moved taskId _ _ rfl rfl
    (fun t _ hg => .moved a (isoUtc now) ha (runningAt_iff.1 hg).1) fun t => rfl

end Updates

section Closing

variable {P : TransitionArgs → Prop} {t t' : AgentTask}

/-- What every state of a task satisfies beside its grants. -/
structure AgentTask.WithinBounds (t : AgentTask) : Prop where
  decisions : t.modelDecisionsUsed ≤ t.modelDecisionsLimit
  calls : t.capabilityCallsUsed ≤ t.capabilityCallsLimit
  completed : t.status = .completed ↔ t.completedAt.isSome = true
  cancelled : t.status = .cancelled ↔ t.cancelledAt.isSome = true

theorem RowStep.withinBounds (hstep : RowStep P t t') (h : t.WithinBounds) : t'.WithinBounds := by
  have hopen : t.status.terminal = false →
      t.completedAt.isSome = false ∧ t.cancelledAt.isSome = false := by
    intro hterminal
    constructor
    · by_contra hsome
      rw [h.completed.2 (eq_true_of_ne_false hsome)] at hterminal
      simp [TaskStatus.terminal] at hterminal
    · by_contra hsome
      rw [h.cancelled.2 (eq_true_of_ne_false hsome)] at hterminal
      simp [TaskStatus.terminal] at hterminal
  cases hstep with
  | kept => exact h
  | steered now hterminal =>
    obtain ⟨hcompleted, hcancelled⟩ := hopen hterminal
    refine ⟨h.decisions, h.calls, ?_, ?_⟩
    · by_cases hrequeue : requeues t.status = true
      · simp [steer, hrequeue, hcompleted]
      · simpa [steer, hrequeue] using h.completed
    · by_cases hrequeue : requeues t.status = true
      · simp [steer, hrequeue, hcancelled]
      · simpa [steer, hrequeue] using h.cancelled
  | ownerMoved status now hterminal hstatus =>
    obtain ⟨hcompleted, hcancelled⟩ := hopen hterminal
    refine ⟨h.decisions, h.calls, ?_, ?_⟩
    · rcases hstatus with rfl | rfl <;> simp [ownerMove, hcompleted]
    · rcases hstatus with rfl | rfl <;> simp [ownerMove, hcancelled]
  | resumed seconds decisions calls now hresumable =>
    obtain ⟨hcompleted, hcancelled⟩ := hopen (terminal_of_resumable hresumable)
    have hdecisions := h.decisions
    have hcalls := h.calls
    refine ⟨?_, ?_, by simp [resume, hcompleted], by simp [resume, hcancelled]⟩
    · simp only [resume]
      omega
    · simp only [resume]
      omega
  | activated jobId now hqueued => exact ⟨h.decisions, h.calls, h.completed, h.cancelled⟩
  | advanced now hqueued => exact ⟨h.decisions, h.calls, h.completed, h.cancelled⟩
  | bound workspaceRef now hqueued => exact ⟨h.decisions, h.calls, h.completed, h.cancelled⟩
  | begun jobId now hstatus hactive =>
    have hterminal : t.status.terminal = false := by
      rcases hstatus with hstatus | hstatus <;> simp [hstatus, TaskStatus.terminal]
    obtain ⟨hcompleted, hcancelled⟩ := hopen hterminal
    exact ⟨h.decisions, h.calls, by simp [startRun, hcompleted], by simp [startRun, hcancelled]⟩
  | planned plan summary now hrunning => exact ⟨h.decisions, h.calls, h.completed, h.cancelled⟩
  | charged seconds decisions calls now hrunning hdecisions hcalls =>
    exact ⟨hdecisions, hcalls, h.completed, h.cancelled⟩
  | moved a now ha hrunning =>
    obtain ⟨hcompleted, hcancelled⟩ := hopen (by simp [hrunning, TaskStatus.terminal])
    refine ⟨h.decisions, h.calls, ?_, ?_⟩
    · by_cases hdone : a.status = .completed <;> simp [moveTask, hdone, hcompleted]
    · by_cases hdone : a.status = .cancelled <;> simp [moveTask, hdone, hcancelled]

theorem RowStep.generation_le (hstep : RowStep P t t') : t.runGeneration ≤ t'.runGeneration := by
  cases hstep with
  | steered now hterminal =>
    have hnext (status : TaskStatus) : ((steer status (requeues t.status) now).apply t).runGeneration =
        if requeues t.status then t.runGeneration + 1 else t.runGeneration := rfl
    rw [hnext]
    split <;> omega
  | resumed seconds decisions calls now hresumable => exact Int.le_add_one le_rfl
  | advanced now hqueued => exact Int.le_add_one le_rfl
  | _ => exact le_rfl

end Closing

section Starts

/-- A run of the task that `begin_run` has accepted: its generation and its job. -/
structure Start where
  taskId : Str
  generation : Int
  jobId : Str

/-- The guard of `begin_run`. -/
def startable (generation : Int) (jobId : Str) (t : AgentTask) : Bool :=
  t.runGeneration = generation && (t.status = .queued || t.status = .running) &&
    (t.activeJobId.isNone || t.activeJobId = some jobId)

/-- The transitions of workers never queue or run a task. -/
def TransitionArgs.ends (a : TransitionArgs) : Prop := a.status ≠ .queued ∧ a.status ≠ .running

/-- The task runs under the job of the start, or it has left that run for good. -/
def Start.Claimed (s : Start) (t : AgentTask) : Prop :=
  s.generation < t.runGeneration ∨ s.generation = t.runGeneration ∧ t.status ≠ .queued ∧
    (t.status = .running → t.activeJobId = some s.jobId)

variable {s : Start} {t t' : AgentTask}

theorem Start.Claimed.step (h : s.Claimed t) (hstep : RowStep TransitionArgs.ends t t') :
    s.Claimed t' := by
  rcases h with hlt | ⟨hgeneration, hqueued, hrunning⟩
  · exact .inl (hlt.trans_le hstep.generation_le)
  · cases hstep with
    | kept => exact .inr ⟨hgeneration, hqueued, hrunning⟩
    | steered now hterminal =>
      by_cases hrequeue : requeues t.status = true
      · refine .inl ?_
        simp only [steer, hrequeue, if_true]
        omega
      · refine .inr ⟨?_, ?_, ?_⟩
        · simpa [steer, hrequeue] using hgeneration
        · simpa [steer, hrequeue] using hqueued
        · simpa [steer, hrequeue] using hrunning
    | ownerMoved status now hterminal hstatus =>
      refine .inr ⟨hgeneration, ?_, ?_⟩
      · rcases hstatus with rfl | rfl <;> simp [ownerMove]
      · rcases hstatus with rfl | rfl <;> simp [ownerMove]
    | resumed seconds decisions calls now hresumable =>
      refine .inl ?_
      simp only [resume]
      omega
    | activated jobId now hq => exact absurd hq hqueued
    | advanced now hq => exact absurd hq hqueued
    | bound workspaceRef now hq => exact absurd hq hqueued
    | begun jobId now hstatus hactive =>
      have hrun : t.status = .running := hstatus.resolve_left hqueued
      have hjob : some s.jobId = some jobId := by
        rcases hactive with hnone | hsome
        · simp [hnone] at hrunning
          exact absurd hrun hrunning
        · exact (hrunning hrun).symm.trans hsome
      exact .inr ⟨hgeneration, by simp [startRun], fun _ => hjob.symm⟩
    | planned plan summary now hrun => exact .inr ⟨hgeneration, hqueued, hrunning⟩
    | charged seconds decisions calls now hrun hdecisions hcalls =>
      exact .inr ⟨hgeneration, hqueued, hrunning⟩
    | moved a now ha hrun =>
      exact .inr ⟨hgeneration, ha.1, fun hstatus => absurd hstatus ha.2⟩

/-- A further start of the generation is under the same job. -/
theorem Start.Claimed.startable {jobId : Str} (h : s.Claimed t)
    (hstart : startable s.generation jobId t = true) : s.jobId = jobId := by
  simp only [Tasks.startable, Bool.and_eq_true, Bool.or_eq_true, decide_eq_true_eq,
    Option.isNone_iff_eq_none] at hstart
  obtain ⟨⟨hgeneration, hstatus⟩, hactive⟩ := hstart
  rcases h with hlt | ⟨-, hqueued, hrunning⟩
  · omega
  · have hsome := hrunning (hstatus.resolve_left hqueued)
    rcases hactive with hnone | hactive
    · simp [hnone] at hsome
    · exact Option.some.inj (hsome.symm.trans hactive)

theorem claimed_of_startable {jobId now : Str}
    (hstart : startable s.generation s.jobId t = true) (hjob : jobId = s.jobId) :
    s.Claimed ((startRun jobId now).apply t) := by
  simp only [startable, Bool.and_eq_true, decide_eq_true_eq] at hstart
  exact .inr ⟨hstart.1.1.symm, by simp [startRun], fun _ => by simp [startRun, hjob]⟩

end Starts

section Histories

variable [PythonText]

/-- The store with the rows that were created and the starts that were accepted. -/
structure TaskHistory where
  db : TaskDb
  created : List AgentTask
  started : List Start

/-- The row that the call inserts. -/
def TaskCall.creates (db : TaskDb) : TaskCall → List AgentTask
  | .createTask request taskId now =>
    match (Tasks.createTask request taskId now).reply db with
    | .ok (row, true) => [row]
    | .ok (_, false) | .error _ => []
  | _ => []

def TaskCall.starts (db : TaskDb) : TaskCall → List Start
  | .beginRun taskId jobId generation _ =>
    if (db.task? taskId).any (startable generation jobId) then [⟨taskId, generation, jobId⟩] else []
  | _ => []

/-- A `uuid4` that was drawn before, which never comes. -/
def TaskCall.repeats (created : List AgentTask) : TaskCall → Bool
  | .createTask _ taskId _ => created.any (·.taskId = taskId)
  | _ => false

def TaskHistory.next (h : TaskHistory) (c : TaskCall) : TaskHistory :=
  if c.repeats h.created then h
  else ⟨c.commit h.db, h.created ++ c.creates h.db, h.started ++ c.starts h.db⟩

def historyAfter (cs : List TaskCall) : TaskHistory := run TaskHistory.next ⟨.empty, [], []⟩ cs

/-- What a call does to the tables of tasks and grants. -/
inductive CallCase (Q : Str → TransitionArgs → Prop) (c : TaskCall) (db db' : TaskDb) : Prop
  | updated (hupdate : TaskUpdate Q db db') (hcreates : c.creates db = [])
  | inserted (row : AgentTask) (hcreates : c.creates db = [row]) (hrow : row.WithinBounds)
      (hrepeats : ∀ created, c.repeats created = created.any (·.taskId = row.taskId))
      (hinsert : ∃ tasks, db.tasks.insert? row = some tasks ∧ db'.tasks = tasks)
      (hgrants : db'.grants = db.grants)
  | deleted (k : Str) (htasks : db'.tasks = db.tasks.delete (·.taskId = k))
      (hgrants : db'.grants = db.grants.filter (·.taskId ≠ k)) (hcreates : c.creates db = [])

variable {Q : Str → TransitionArgs → Prop} {db db' : TaskDb}

omit [PythonText] in
theorem row_withinBounds (request : TaskRequest) (taskId now : Str) :
    (request.row taskId now).WithinBounds := by
  refine ⟨?_, ?_, ?_, ?_⟩
  · simp only [TaskRequest.row]
    omega
  · simp only [TaskRequest.row]
    omega
  · simp [TaskRequest.row]
  · simp [TaskRequest.row]

theorem createTask_case (request : TaskRequest) (taskId : Str) (now : Instant) :
    CallCase Q (.createTask request taskId now) db
      (TaskCall.commit db (.createTask request taskId now)) := by
  cases hrun : createTask request taskId now db with
  | error e =>
    have hdb : TaskCall.commit db (.createTask request taskId now) = db :=
      Transaction.commit_of_error hrun
    rw [hdb]
    exact .updated (.kept rfl rfl) (by simp [TaskCall.creates, Transaction.reply, hrun, Except.map])
  | ok p =>
    obtain ⟨⟨row, fresh⟩, db'⟩ := p
    have hdb : TaskCall.commit db (.createTask request taskId now) = db' :=
      Transaction.commit_of_ok hrun
    have hcreates : ∀ created, fresh = created → TaskCall.creates db
        (.createTask request taskId now) = if created then [row] else [] := by
      rintro _ rfl
      cases fresh <;> simp [TaskCall.creates, Transaction.reply, hrun, Except.map]
    rw [hdb]
    simp only [createTask, bind_eq_ok] at hrun
    obtain ⟨_, -, hrun⟩ := hrun
    split at hrun
    · simp only [bind_eq_ok, Except.ok.injEq, Prod.mk.injEq] at hrun
      obtain ⟨-, -, ⟨-, hfresh⟩, rfl⟩ := hrun
      exact .updated (.kept rfl rfl) (hcreates false hfresh.symm)
    · split at hrun
      · simp at hrun
      · next tasks hinsert =>
        simp only [Except.ok.injEq, Prod.mk.injEq] at hrun
        obtain ⟨⟨rfl, hfresh⟩, rfl⟩ := hrun
        exact .inserted _ (hcreates true hfresh.symm) (row_withinBounds _ _ _) (fun _ => rfl)
          ⟨tasks, hinsert, rfl⟩ rfl

theorem deleteTask_case (taskId ownerId : Str) :
    CallCase Q (.deleteTask taskId ownerId) db
      (TaskCall.commit db (.deleteTask taskId ownerId)) := by
  refine Transaction.commit_of_forall (.updated (.kept rfl rfl) rfl) fun reply db' h => ?_
  unfold deleteTask at h
  split at h
  · simp only [Except.ok.injEq, Prod.mk.injEq] at h
    obtain ⟨-, rfl⟩ := h
    exact .updated (.kept rfl rfl) rfl
  · simp only [bind_eq_ok, Except.ok.injEq, Prod.mk.injEq] at h
    obtain ⟨-, -, -, rfl⟩ := h
    exact .deleted taskId rfl rfl rfl

/-- The transitions of a call are those that `Q` admits. -/
def TaskCall.Admits (Q : Str → TransitionArgs → Prop) : TaskCall → Prop
  | .workerTransition taskId a _ _ => Q taskId a
  | _ => True

theorem call_case (c : TaskCall) (hc : c.Admits Q) : CallCase Q c db (c.commit db) := by
  cases c with
  | createTask request taskId now => exact createTask_case request taskId now
  | deleteTask taskId ownerId => exact deleteTask_case taskId ownerId
  | setActiveJob taskId jobId generation now => exact .updated setActiveJob_update rfl
  | advanceQueuedGeneration taskId generation now =>
    exact .updated advanceQueuedGeneration_update rfl
  | setWorkspaceRef taskId workspaceRef now => exact .updated setWorkspaceRef_update rfl
  | addUserMessage taskId ownerId expected submissionId content now =>
    exact .updated addUserMessage_update rfl
  | pause taskId ownerId expected now => exact .updated (ownerTransition_update (.inl rfl)) rfl
  | cancel taskId ownerId expected now => exact .updated (ownerTransition_update (.inr rfl)) rfl
  | continueTask taskId ownerId expected submissionId seconds decisions calls now =>
    exact .updated continueTask_update rfl
  | beginRun taskId jobId generation now => exact .updated beginRun_update rfl
  | setPlan taskId plan summary expected now => exact .updated setPlan_update rfl
  | consumeUsage taskId expected seconds decisions calls now =>
    exact .updated consumeUsage_update rfl
  | workerTransition taskId a expected now => exact .updated (workerTransition_update hc) rfl
  | appendMessage message =>
    exact .updated (.commit fun _ _ h => .of_same (addMessage_same h)) rfl
  | reserveEffect a receiptId now =>
    exact .updated (.commit fun _ _ h => .of_same (reserveEffect_same h)) rfl
  | finishEffect taskId logicalId state result now =>
    refine .updated (.commit fun _ _ h => ?_) rfl
    obtain ⟨_, -, -, rfl⟩ := finishEffect_spec h
    exact .kept rfl rfl
  | savePreference a freshId now =>
    exact .updated (.commit fun _ _ h => .of_same (savePreference_spec h).2) rfl
  | saveSkillRevision a now =>
    exact .updated (.commit fun _ _ h => .of_same (saveSkillRevision_spec h).2) rfl

end Histories

section Soundness

variable {Q : Str → TransitionArgs → Prop} {db db' : TaskDb}

/-- Every task before an update is there after it, one step of its row further. -/
theorem TaskUpdate.rows (h : TaskUpdate Q db db') (k : Str) :
    (db.task? k = none ∧ db'.task? k = none) ∨
      ∃ t t', db.task? k = some t ∧ db'.task? k = some t' ∧ RowStep (Q k) t t' := by
  cases hrow : db.task? k with
  | none =>
    refine .inl ⟨rfl, ?_⟩
    have hfind : db.tasks.find? k = none := hrow
    cases h with
    | kept htasks hgrants => simp [TaskDb.task?, htasks, hfind]
    | moved k' g f htasks hgrants hstep hlimits =>
      simp [TaskDb.task?, htasks, Table.find?_updateKey, hfind]
    | granted grant seconds now htasks hgrants hnonneg hnew hresumable =>
      simp [TaskDb.task?, htasks, Table.find?_updateKey, hfind]
  | some t =>
    have hfind : db.tasks.find? k = some t := hrow
    refine .inr ⟨t, ?_⟩
    cases h with
    | kept htasks hgrants => exact ⟨t, rfl, by simp [TaskDb.task?, htasks, hfind], .kept⟩
    | moved k' g f htasks hgrants hstep hlimits =>
      by_cases hk : k = k' ∧ g t = true
      · obtain ⟨rfl, hg⟩ := hk
        exact ⟨f.apply t, rfl, by simp [TaskDb.task?, htasks, Table.find?_updateKey, hfind, hg],
          hstep t hrow hg⟩
      · exact ⟨t, rfl, by simp [TaskDb.task?, htasks, Table.find?_updateKey, hfind, hk], .kept⟩
    | granted grant seconds now htasks hgrants hnonneg hnew hresumable =>
      by_cases hk : k = grant.taskId
      · obtain ⟨t', ht', hstatus⟩ := hresumable
        obtain rfl : t = t' := Option.some.inj (hrow.symm.trans (hk ▸ ht'))
        refine ⟨(resume seconds grant.addedModelDecisions grant.addedCapabilityCalls now).apply t,
          rfl, ?_, .resumed _ _ _ _ hstatus⟩
        rw [TaskDb.task?, htasks, Table.find?_updateKey, hfind]
        simp [hk]
      · exact ⟨t, rfl, by simp [TaskDb.task?, htasks, Table.find?_updateKey, hfind, hk], .kept⟩

/-- The sum of one column of the grants of a task. -/
def grantTotal (column : BudgetGrant → Int) (db : TaskDb) (k : Str) : Int :=
  ((db.grants.filter (·.taskId = k)).map column).sum

/-- The limits are those of the created row and what was granted since. -/
def AgentTask.FundedFrom (t₀ : AgentTask) (db : TaskDb) (t : AgentTask) : Prop :=
  t.modelDecisionsLimit =
      t₀.modelDecisionsLimit + grantTotal (·.addedModelDecisions) db t₀.taskId ∧
    t.capabilityCallsLimit =
      t₀.capabilityCallsLimit + grantTotal (·.addedCapabilityCalls) db t₀.taskId

/-- Limits move by what is granted. -/
theorem TaskUpdate.funded (h : TaskUpdate Q db db') {t₀ t t' : AgentTask}
    (ht : db.task? t₀.taskId = some t) (ht' : db'.task? t₀.taskId = some t')
    (hfunded : t₀.FundedFrom db t) : t₀.FundedFrom db' t' := by
  have hfind : db.tasks.find? t₀.taskId = some t := ht
  have hfind' : db'.tasks.find? t₀.taskId = some t' := ht'
  cases h with
  | kept htasks hgrants =>
    rw [htasks, hfind] at hfind'
    rw [← Option.some.inj hfind', AgentTask.FundedFrom, grantTotal, grantTotal, hgrants]
    exact hfunded
  | moved k' g f htasks hgrants hstep hlimits =>
    rw [htasks, Table.find?_updateKey, hfind, Option.map_some, Option.some.injEq] at hfind'
    rw [← hfind', AgentTask.FundedFrom, grantTotal, grantTotal, hgrants]
    by_cases hk : t₀.taskId = k' ∧ g t = true
    · rw [if_pos hk, (Prod.mk.inj (hlimits t)).1, (Prod.mk.inj (hlimits t)).2]
      exact hfunded
    · rw [if_neg hk]
      exact hfunded
  | granted grant seconds now htasks hgrants hnonneg hnew hresumable =>
    rw [htasks, Table.find?_updateKey, hfind, Option.map_some, Option.some.injEq] at hfind'
    obtain ⟨hdecisions, hcalls⟩ := hfunded
    rw [← hfind', AgentTask.FundedFrom, grantTotal, grantTotal, hgrants, List.filter_append]
    by_cases hk : t₀.taskId = grant.taskId
    · simp only [hk, resume, grantTotal] at hdecisions hcalls ⊢
      simp [hdecisions, hcalls, hnonneg.1, hnonneg.2, Int.add_assoc]
    · simp only [hk, false_and, if_false]
      simpa [Ne.symm hk, grantTotal] using And.intro hdecisions hcalls

structure Sound (h : TaskHistory) : Prop where
  bounded : ∀ k t, h.db.task? k = some t → t.WithinBounds
  funded : ∀ k t, h.db.task? k = some t →
    ∃ t₀ ∈ h.created, t₀.taskId = k ∧ t₀.FundedFrom h.db t
  createdOnce : (h.created.map (·.taskId)).Nodup
  grantedOnce : (h.db.grants.map fun g => (g.taskId, g.submissionId)).Nodup
  anchored : ∀ g ∈ h.db.grants, (h.db.task? g.taskId).isSome = true

theorem sound_updated {h : TaskHistory} {started : List Start} (hs : Sound h)
    (hupdate : TaskUpdate Q h.db db') : Sound ⟨db', h.created, started⟩ := by
  have hback : ∀ k t', db'.task? k = some t' → ∃ t, h.db.task? k = some t ∧ RowStep (Q k) t t' := by
    intro k t' ht'
    rcases hupdate.rows k with ⟨-, hnone⟩ | ⟨t, t'', ht, ht'', hstep⟩
    · simp [hnone] at ht'
    · obtain rfl : t' = t'' := Option.some.inj (ht'.symm.trans ht'')
      exact ⟨t, ht, hstep⟩
  refine ⟨?_, ?_, hs.createdOnce, ?_, ?_⟩
  · intro k t' ht'
    obtain ⟨t, ht, hstep⟩ := hback k t' ht'
    exact hstep.withinBounds (hs.bounded k t ht)
  · intro k t' ht'
    obtain ⟨t, ht, -⟩ := hback k t' ht'
    obtain ⟨t₀, hmem, rfl, hfunded⟩ := hs.funded k t ht
    exact ⟨t₀, hmem, rfl, hupdate.funded ht ht' hfunded⟩
  · cases hupdate with
    | kept htasks hgrants => exact hgrants ▸ hs.grantedOnce
    | moved k' g f htasks hgrants hstep hlimits => exact hgrants ▸ hs.grantedOnce
    | granted grant seconds now htasks hgrants hnonneg hnew hresumable =>
      rw [hgrants, List.map_append, List.map_cons, List.map_nil]
      refine List.nodup_append.2 ⟨hs.grantedOnce, by simp, ?_⟩
      intro a ha b hb hab
      obtain ⟨g, hg, rfl⟩ := List.mem_map.1 ha
      obtain rfl := List.mem_singleton.1 hb
      obtain ⟨htask, hsubmission⟩ := Prod.mk.inj hab
      exact hnew g hg htask hsubmission
  · have hkeep : ∀ k, (h.db.task? k).isSome = true → (db'.task? k).isSome = true := by
      intro k hsome
      rcases hupdate.rows k with ⟨hnone, -⟩ | ⟨t, t', -, ht', -⟩
      · simp [hnone] at hsome
      · simp [ht']
    intro g hg
    cases hupdate with
    | kept htasks hgrants => exact hkeep _ (hs.anchored g (hgrants ▸ hg))
    | moved k' g' f htasks hgrants hstep hlimits => exact hkeep _ (hs.anchored g (hgrants ▸ hg))
    | granted grant seconds now htasks hgrants hnonneg hnew hresumable =>
      have hmem : g ∈ h.db.grants ++ [grant] := hgrants ▸ hg
      rcases List.mem_append.1 hmem with hold | hlast
      · exact hkeep _ (hs.anchored g hold)
      · obtain rfl := List.mem_singleton.1 hlast
        obtain ⟨t, ht, -⟩ := hresumable
        exact hkeep _ (by simp [ht])

end Soundness

section Reachable

variable [PythonText] {Q : Str → TransitionArgs → Prop}

omit [PythonText] in
theorem sound_inserted {h : TaskHistory} {started : List Start} {db' : TaskDb} {row : AgentTask}
    {tasks : Table AgentTask.taskId} (hs : Sound h) (hrow : row.WithinBounds)
    (hnew : ∀ t₀ ∈ h.created, t₀.taskId ≠ row.taskId)
    (hinsert : h.db.tasks.insert? row = some tasks) (htasks : db'.tasks = tasks)
    (hgrants : db'.grants = h.db.grants) : Sound ⟨db', h.created ++ [row], started⟩ := by
  have hfind : ∀ k, db'.task? k = if row.taskId = k then some row else h.db.task? k := by
    intro k
    rw [TaskDb.task?, htasks, Table.find?_insert? hinsert]
    rfl
  have habsent : h.db.task? row.taskId = none := (Table.insert?_eq_some hinsert).1
  refine ⟨?_, ?_, ?_, hgrants ▸ hs.grantedOnce, ?_⟩
  · intro k t ht
    rw [hfind] at ht
    split at ht
    · exact Option.some.inj ht ▸ hrow
    · exact hs.bounded k t ht
  · intro k t ht
    rw [hfind] at ht
    split at ht
    · next hk =>
      have hnone : h.db.grants.filter (·.taskId = k) = [] := by
        rw [List.filter_eq_nil_iff]
        intro g hg hgk
        have hsome := hs.anchored g hg
        rw [of_decide_eq_true hgk, ← hk, habsent] at hsome
        simp at hsome
      refine ⟨row, by simp, hk, ?_⟩
      simp [← Option.some.inj ht, AgentTask.FundedFrom, grantTotal, hgrants, hk, hnone]
    · obtain ⟨t₀, hmem, hid, hfunded⟩ := hs.funded k t ht
      refine ⟨t₀, List.mem_append_left _ hmem, hid, ?_⟩
      rw [AgentTask.FundedFrom, grantTotal, grantTotal, hgrants]
      exact hfunded
  · rw [List.map_append, List.map_cons, List.map_nil]
    refine List.nodup_append.2 ⟨hs.createdOnce, by simp, ?_⟩
    intro a ha b hb hab
    obtain ⟨t₀, hmem, rfl⟩ := List.mem_map.1 ha
    exact hnew t₀ hmem (hab.trans (List.mem_singleton.1 hb))
  · intro g hg
    have hsome := hs.anchored g (hgrants ▸ hg)
    rw [hfind]
    split
    · rfl
    · exact hsome

omit [PythonText] in
theorem sound_deleted {h : TaskHistory} {started : List Start} {db' : TaskDb} {k : Str}
    (hs : Sound h) (htasks : db'.tasks = h.db.tasks.delete (·.taskId = k))
    (hgrants : db'.grants = h.db.grants.filter (·.taskId ≠ k)) :
    Sound ⟨db', h.created, started⟩ := by
  have hfind : ∀ k', db'.task? k' = if k' = k then none else h.db.task? k' := by
    intro k'
    rw [TaskDb.task?, htasks, Table.find?_delete_key]
    rfl
  refine ⟨?_, ?_, hs.createdOnce, ?_, ?_⟩
  · intro k' t ht
    rw [hfind] at ht
    split at ht
    · simp at ht
    · exact hs.bounded k' t ht
  · intro k' t ht
    rw [hfind] at ht
    split at ht
    · simp at ht
    · next hk =>
      obtain ⟨t₀, hmem, rfl, hfunded⟩ := hs.funded k' t ht
      have hsame : db'.grants.filter (·.taskId = t₀.taskId) =
          h.db.grants.filter (·.taskId = t₀.taskId) := by
        rw [hgrants, List.filter_filter]
        refine List.filter_congr fun g _ => ?_
        by_cases hg : g.taskId = t₀.taskId <;> simp [hg, hk]
      refine ⟨t₀, hmem, rfl, ?_⟩
      rw [AgentTask.FundedFrom, grantTotal, grantTotal, hsame]
      exact hfunded
  · rw [hgrants]
    exact hs.grantedOnce.sublist (List.filter_sublist.map _)
  · intro g hg
    rw [hgrants, List.mem_filter, decide_eq_true_eq] at hg
    rw [hfind, if_neg hg.2]
    exact hs.anchored g hg.1

theorem next_sound (h : TaskHistory) (c : TaskCall) (hs : Sound h) : Sound (h.next c) := by
  unfold TaskHistory.next
  split
  · exact hs
  · next hrepeats =>
    have hadmits : c.Admits fun _ _ => True := by cases c <;> trivial
    have hcase : CallCase _ c h.db (c.commit h.db) := call_case c hadmits
    cases hcase with
    | updated hupdate hcreates =>
      rw [hcreates, List.append_nil]
      exact sound_updated hs hupdate
    | inserted row hcreates hrow hrepeat hinsert hgrants =>
      obtain ⟨tasks, hinsert, htasks⟩ := hinsert
      rw [hcreates]
      refine sound_inserted hs hrow (fun t₀ hmem hid => hrepeats ?_) hinsert htasks hgrants
      rw [hrepeat]
      exact List.any_eq_true.2 ⟨t₀, hmem, by simp [hid]⟩
    | deleted k htasks hgrants hcreates =>
      rw [hcreates, List.append_nil]
      exact sound_deleted hs htasks hgrants

theorem reachable_sound (cs : List TaskCall) : Sound (historyAfter cs) := by
  have hstep : ∀ h c, Sound h → Sound (h.next c) := next_sound
  refine run_invariant hstep ?_ cs
  refine ⟨?_, ?_, by simp, by simp [TaskDb.empty], ?_⟩
  · intro k t ht
    simp [TaskDb.empty, TaskDb.task?] at ht
  · intro k t ht
    simp [TaskDb.empty, TaskDb.task?] at ht
  · intro g hg
    simp [TaskDb.empty] at hg

end Reachable

section Histories

variable [PythonText]

/-- A task that once had the row `t` never goes back behind it. -/
structure Since (k : Str) (t : AgentTask) (h : TaskHistory) : Prop where
  created : ∃ t₀ ∈ h.created, t₀.taskId = k
  grown : ∀ t', h.db.task? k = some t' →
    t.runGeneration ≤ t'.runGeneration ∧ (t.status.terminal = true → t' = t)

theorem next_since {k : Str} {t : AgentTask} (h : TaskHistory) (c : TaskCall) (hs : Since k t h) :
    Since k t (h.next c) := by
  unfold TaskHistory.next
  split
  · exact hs
  · next hrepeats =>
    obtain ⟨t₀, hmem, hid⟩ := hs.created
    have hcreated : ∀ rows, ∃ t₀ ∈ h.created ++ rows, t₀.taskId = k :=
      fun rows => ⟨t₀, List.mem_append_left _ hmem, hid⟩
    have hadmits : c.Admits fun _ _ => True := by cases c <;> trivial
    refine ⟨hcreated _, fun t' ht' => ?_⟩
    have hcase : CallCase _ c h.db (c.commit h.db) := call_case c hadmits
    cases hcase with
    | updated hupdate hcreates =>
      rcases hupdate.rows k with ⟨-, hnone⟩ | ⟨u, u', hu, hu', hstep⟩
      · have hfind : (c.commit h.db).task? k = some t' := ht'
        simp [hnone] at hfind
      · obtain rfl : t' = u' := Option.some.inj (ht'.symm.trans hu')
        obtain ⟨hle, hclosed⟩ := hs.grown u hu
        refine ⟨hle.trans hstep.generation_le, fun hterminal => ?_⟩
        obtain rfl := hclosed hterminal
        exact hstep.eq_of_terminal hterminal
    | inserted row hcreates hrow hrepeat hinsert hgrants =>
      obtain ⟨tasks, hinsert, htasks⟩ := hinsert
      have hfind : (c.commit h.db).task? k = some t' := ht'
      rw [TaskDb.task?, htasks, Table.find?_insert? hinsert] at hfind
      split at hfind
      · next hk =>
        rw [hrepeat] at hrepeats
        exact absurd (List.any_eq_true.2 ⟨t₀, hmem, by simp [hid, hk]⟩) hrepeats
      · exact hs.grown t' hfind
    | deleted k' htasks hgrants hcreates =>
      have hfind : (c.commit h.db).task? k = some t' := ht'
      rw [TaskDb.task?, htasks, Table.find?_delete_key] at hfind
      split at hfind
      · simp at hfind
      · exact hs.grown t' hfind

/-- Every accepted start holds its generation of the task. -/
structure Holds (h : TaskHistory) : Prop where
  created : ∀ s ∈ h.started, ∃ t₀ ∈ h.created, t₀.taskId = s.taskId
  claimed : ∀ s ∈ h.started, ∀ t, h.db.task? s.taskId = some t → s.Claimed t
  sole : ∀ s ∈ h.started, ∀ s' ∈ h.started, s.taskId = s'.taskId →
    s.generation = s'.generation → s.jobId = s'.jobId

/-- A new start of `begin_run`, with the row it finds and the row it leaves. -/
theorem starts_cases {db : TaskDb} {c : TaskCall} {s : Start} (hs : s ∈ c.starts db) :
    c.starts db = [s] ∧ c.creates db = [] ∧ ∃ t now, db.task? s.taskId = some t ∧
      startable s.generation s.jobId t = true ∧
      (c.commit db).task? s.taskId = some ((startRun s.jobId now).apply t) := by
  cases c with
  | beginRun taskId jobId generation now =>
    by_cases hany : (db.task? taskId).any (startable generation jobId) = true
    · have hstarts : TaskCall.starts db (.beginRun taskId jobId generation now) =
          [⟨taskId, generation, jobId⟩] := if_pos hany
      rw [hstarts, List.mem_singleton] at hs
      subst hs
      obtain ⟨t, ht, hstart⟩ := (Option.any_eq_true _ _).1 hany
      refine ⟨hstarts, rfl, t, isoUtc now, ht, hstart, ?_⟩
      have hcommit : (TaskCall.commit db (.beginRun taskId jobId generation now)).task? taskId =
          ((db.updateTask taskId (startable generation jobId)
            (startRun jobId (isoUtc now))).2).task? taskId := rfl
      rw [hcommit, task?_updateTask, ht]
      simp [hstart]
    · have hstarts : TaskCall.starts db (.beginRun taskId jobId generation now) = [] := if_neg hany
      rw [hstarts] at hs
      simp at hs
  | _ => exact absurd hs (by simp [TaskCall.starts])

theorem claimed_of_case {h : TaskHistory} {c : TaskCall} (hh : Holds h)
    (hc : c.Admits fun _ a => a.ends) (hrepeats : c.repeats h.created = false) {s : Start}
    (hs : s ∈ h.started) {t' : AgentTask} (ht' : (c.commit h.db).task? s.taskId = some t') :
    s.Claimed t' := by
  have hcase : CallCase _ c h.db (c.commit h.db) := call_case c hc
  cases hcase with
  | updated hupdate hcreates =>
    rcases hupdate.rows s.taskId with ⟨-, hnone⟩ | ⟨u, u', hu, hu', hstep⟩
    · simp [hnone] at ht'
    · obtain rfl : t' = u' := Option.some.inj (ht'.symm.trans hu')
      exact (hh.claimed s hs u hu).step hstep
  | inserted row hcreates hrow hrepeat hinsert hgrants =>
    obtain ⟨tasks, hinsert, htasks⟩ := hinsert
    rw [TaskDb.task?, htasks, Table.find?_insert? hinsert] at ht'
    split at ht'
    · next hk =>
      obtain ⟨t₀, hmem, hid⟩ := hh.created s hs
      rw [hrepeat, List.any_eq_false] at hrepeats
      exact absurd (by simp [hid, hk]) (hrepeats t₀ hmem)
    · exact hh.claimed s hs t' ht'
  | deleted k htasks hgrants hcreates =>
    rw [TaskDb.task?, htasks, Table.find?_delete_key] at ht'
    split at ht'
    · simp at ht'
    · exact hh.claimed s hs t' ht'

theorem next_holds (h : TaskHistory) (c : TaskCall) (hc : c.Admits fun _ a => a.ends)
    (hsound : Sound h) (hh : Holds h) : Holds (h.next c) := by
  unfold TaskHistory.next
  split
  · exact hh
  · next hrepeats =>
    have hfresh : c.repeats h.created = false := by simpa using hrepeats
    refine ⟨?_, ?_, ?_⟩
    · intro s hs
      rcases List.mem_append.1 hs with hs | hs
      · obtain ⟨t₀, hmem, hid⟩ := hh.created s hs
        exact ⟨t₀, List.mem_append_left _ hmem, hid⟩
      · obtain ⟨-, -, t, now, ht, -⟩ := starts_cases hs
        obtain ⟨t₀, hmem, hid, -⟩ := hsound.funded _ t ht
        exact ⟨t₀, List.mem_append_left _ hmem, hid⟩
    · intro s hs t' ht'
      rcases List.mem_append.1 hs with hs | hs
      · exact claimed_of_case hh hc hfresh hs ht'
      · obtain ⟨-, -, t, now, ht, hstart, hafter⟩ := starts_cases hs
        obtain rfl : t' = (startRun s.jobId now).apply t := Option.some.inj (ht'.symm.trans hafter)
        exact claimed_of_startable hstart rfl
    · have hnew : ∀ s ∈ h.started, ∀ s' ∈ c.starts h.db, s.taskId = s'.taskId →
          s.generation = s'.generation → s.jobId = s'.jobId := by
        intro s hs s' hs' htask hgeneration
        obtain ⟨-, -, t, now, ht, hstart, -⟩ := starts_cases hs'
        exact (hh.claimed s hs t (htask ▸ ht)).startable (hgeneration ▸ hstart)
      intro s hs s' hs' htask hgeneration
      rcases List.mem_append.1 hs with hs | hs <;> rcases List.mem_append.1 hs' with hs' | hs'
      · exact hh.sole s hs s' hs' htask hgeneration
      · exact hnew s hs s' hs' htask hgeneration
      · exact (hnew s' hs' s hs htask.symm hgeneration.symm).symm
      · obtain ⟨hone, -⟩ := starts_cases hs
        rw [hone, List.mem_singleton] at hs'
        rw [hs']

theorem reachable_since {cs : List TaskCall} {t : AgentTask}
    (ht : (historyAfter cs).db.task? t.taskId = some t) (more : List TaskCall) :
    Since t.taskId t (historyAfter (cs ++ more)) := by
  have hstep : ∀ h c, Since t.taskId t h → Since t.taskId t (TaskHistory.next h c) := next_since
  have hstart : Since t.taskId t (historyAfter cs) := by
    obtain ⟨t₀, hmem, hid, -⟩ := (reachable_sound cs).funded _ t ht
    refine ⟨⟨t₀, hmem, hid⟩, fun t' ht' => ?_⟩
    obtain rfl : t = t' := Option.some.inj (ht.symm.trans ht')
    exact ⟨le_rfl, fun _ => rfl⟩
  rw [historyAfter, run_append]
  exact run_invariant hstep hstart more

theorem reachable_holds {cs : List TaskCall} (hcs : ∀ c ∈ cs, c.Admits fun _ a => a.ends) :
    Holds (historyAfter cs) := by
  have hstep : ∀ (h : TaskHistory) (c : TaskCall), (c.Admits fun _ a => a.ends) →
      Sound h ∧ Holds h → Sound (h.next c) ∧ Holds (h.next c) :=
    fun h c hc hh => ⟨next_sound h c hh.1, next_holds h c hc hh.1 hh.2⟩
  have hboth : Sound (historyAfter cs) ∧ Holds (historyAfter cs) := by
    refine run_invariant_of_forall hstep ⟨reachable_sound [], ⟨?_, ?_, ?_⟩⟩ cs ?_
    · exact fun s hs => absurd hs List.not_mem_nil
    · exact fun s hs => absurd hs List.not_mem_nil
    · exact fun s hs => absurd hs List.not_mem_nil
    · rintro pre c post rfl
      exact hcs c (by simp)
  exact hboth.2

/-- The counters, the limits, the closing and the generations of tasks, over every sequence of
repository operations. One job holds a generation while no transition puts a task back into the
queue or into its run. -/
theorem task_lifecycle (cs : List TaskCall) :
    (∀ t ∈ (historyAfter cs).db.tasks.rows,
      t.modelDecisionsUsed ≤ t.modelDecisionsLimit ∧
      t.capabilityCallsUsed ≤ t.capabilityCallsLimit ∧
      (∃ t₀ ∈ (historyAfter cs).created, t₀.taskId = t.taskId ∧
        t₀.FundedFrom (historyAfter cs).db t) ∧
      (t.status = .completed ↔ t.completedAt.isSome = true) ∧
      (t.status = .cancelled ↔ t.cancelledAt.isSome = true)) ∧
    ((historyAfter cs).created.map (·.taskId)).Nodup ∧
    ((historyAfter cs).db.grants.map fun g => (g.taskId, g.submissionId)).Nodup ∧
    (∀ more, ∀ t ∈ (historyAfter cs).db.tasks.rows,
      ∀ t' ∈ (historyAfter (cs ++ more)).db.tasks.rows, t.taskId = t'.taskId →
        t.runGeneration ≤ t'.runGeneration ∧ (t.status.terminal = true → t' = t)) ∧
    ((∀ c ∈ cs, c.Admits fun _ a => a.ends) →
      ∀ s ∈ (historyAfter cs).started, ∀ s' ∈ (historyAfter cs).started,
        s.taskId = s'.taskId → s.generation = s'.generation → s.jobId = s'.jobId) := by
  have hsound := reachable_sound cs
  refine ⟨fun t ht => ?_, hsound.createdOnce, hsound.grantedOnce, ?_, ?_⟩
  · have hfind : (historyAfter cs).db.task? t.taskId = some t := Table.find?_of_mem ht
    have hbounds := hsound.bounded _ t hfind
    exact ⟨hbounds.decisions, hbounds.calls, hsound.funded _ t hfind, hbounds.completed,
      hbounds.cancelled⟩
  · intro more t ht t' ht' hid
    have hsince := reachable_since (Table.find?_of_mem ht) more
    have hfind : (historyAfter (cs ++ more)).db.task? t.taskId = some t' :=
      hid ▸ Table.find?_of_mem ht'
    exact hsince.grown t' hfind
  · exact fun hcs => (reachable_holds hcs).sole

end Histories

section Sample

def idleTask : TaskRequest where
  ownerId := "owner"
  sourceInterface := "local"
  submissionId := "s1"
  goal := "Summarize the notes."
  title := []
  sessionId := none
  workspaceRef := "w1"
  budgetSeconds := 60000000
  modelDecisions := 10
  capabilityCalls := 10

def startOf (now : Fin 60) : Instant := ⟨now.val * 1000000, startSeconds_lt_maxMicros now⟩

/-- A task that is paused for its budget and continued with two more decisions. -/
def continuedRun : List TaskCall :=
  [.createTask idleTask "t1" (startOf 0), .beginRun "t1" "j1" 1 (startOf 1),
    .consumeUsage "t1" 0 0 10 0 (startOf 2),
    .workerTransition "t1" { status := .pausedBudget } (some 0) (startOf 3),
    .continueTask "t1" "owner" 3 "c1" 0 2 0 (startOf 4),
    .continueTask "t1" "owner" 3 "c1" 0 2 0 (startOf 5), .beginRun "t1" "j2" 2 (startOf 6)]

theorem task_lifecycle_continuedRun :
    ∃ t ∈ (@historyAfter asciiText continuedRun).db.tasks.rows, t.modelDecisionsLimit = 12 ∧
      t.modelDecisionsUsed ≤ t.modelDecisionsLimit ∧
      ∀ s ∈ (@historyAfter asciiText continuedRun).started,
        ∀ s' ∈ (@historyAfter asciiText continuedRun).started,
        s.taskId = s'.taskId → s.generation = s'.generation → s.jobId = s'.jobId := by
  have hrow : ∃ t ∈ (@historyAfter asciiText continuedRun).db.tasks.rows,
      t.modelDecisionsLimit = 12 := by decide +kernel
  obtain ⟨t, ht, hlimit⟩ := hrow
  obtain ⟨hrows, -, -, -, hsole⟩ := @task_lifecycle asciiText continuedRun
  refine ⟨t, ht, hlimit, (hrows t ht).1, hsole ?_⟩
  intro c hc
  simp only [continuedRun, List.mem_cons, List.not_mem_nil, or_false] at hc
  rcases hc with rfl | rfl | rfl | rfl | rfl | rfl | rfl <;> trivial

/-- `worker_transition` accepts every status. -/
def requeuedRun : List TaskCall :=
  [.createTask idleTask "t1" (startOf 0), .beginRun "t1" "j1" 1 (startOf 1),
    .workerTransition "t1" { status := .queued } none (startOf 2),
    .beginRun "t1" "j2" 1 (startOf 3)]

theorem two_jobs_requeuedRun :
    (@historyAfter asciiText requeuedRun).started.map (fun s => (s.taskId, s.generation, s.jobId)) =
      [(text "t1", 1, text "j1"), (text "t1", 1, text "j2")] := by
  decide +kernel

end Sample

end HardyAI.Tasks
