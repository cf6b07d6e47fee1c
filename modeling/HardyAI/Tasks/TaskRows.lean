import HardyAI.Tasks.Operations

/-! What the operations of the task store do to the row of a task, and when the guarded
writes of a worker take effect. -/

open Foundation Foundation.Json HardyAI.Reviews

namespace HardyAI.Tasks

section Rows

/-- The statuses in which a message of the owner queues the task again. -/
def requeues : TaskStatus → Bool
  | .waitingInput | .waitingApproval | .failed => true
  | .queued | .running | .pausedBudget | .pausedUser | .completed | .cancelled => false

/-- The changes of a task row: each is the update of one operation with the guard it ran under.
The transitions of workers are those that `P` admits. -/
inductive RowStep (P : TransitionArgs → Prop) (t : AgentTask) : AgentTask → Prop
  | kept : RowStep P t t
  | steered (now : Str) (hopen : t.status.terminal = false) :
      RowStep P t ((steer (if requeues t.status then .queued else t.status) (requeues t.status)
        now).apply t)
  | ownerMoved (status : TaskStatus) (now : Str) (hopen : t.status.terminal = false)
      (hstatus : status = .pausedUser ∨ status = .cancelled) :
      RowStep P t ((ownerMove status now).apply t)
  | resumed (seconds decisions calls : Int) (now : Str) (hresumable : resumable t.status = true) :
      RowStep P t ((resume seconds decisions calls now).apply t)
  | activated (jobId now : Str) (hqueued : t.status = .queued) :
      RowStep P t ((setActive jobId now).apply t)
  | advanced (now : Str) (hqueued : t.status = .queued) : RowStep P t ((advanceGeneration now).apply t)
  | bound (workspaceRef now : Str) (hqueued : t.status = .queued) :
      RowStep P t ((bindWorkspace workspaceRef now).apply t)
  | begun (jobId now : Str) (hstatus : t.status = .queued ∨ t.status = .running)
      (hactive : t.activeJobId = none ∨ t.activeJobId = some jobId) :
      RowStep P t ((startRun jobId now).apply t)
  | planned (plan summary now : Str) (hrunning : t.status = .running) :
      RowStep P t ((setPlanTo plan summary now).apply t)
  | charged (seconds decisions calls : Int) (now : Str) (hrunning : t.status = .running)
      (hdecisions : t.modelDecisionsUsed + max 0 decisions ≤ t.modelDecisionsLimit)
      (hcalls : t.capabilityCallsUsed + max 0 calls ≤ t.capabilityCallsLimit) :
      RowStep P t ((addUsage seconds decisions calls now).apply t)
  | moved (a : TransitionArgs) (now : Str) (ha : P a) (hrunning : t.status = .running) :
      RowStep P t ((moveTask a now).apply t)

variable {P : TransitionArgs → Prop} {t t' : AgentTask}

theorem terminal_of_resumable {status : TaskStatus} (h : resumable status = true) :
    status.terminal = false := by
  cases status <;> simp_all [resumable, TaskStatus.terminal]

theorem RowStep.steering_le (h : RowStep P t t') : t.steeringRevision ≤ t'.steeringRevision := by
  cases h with
  | steered now hopen => exact Int.le_add_one le_rfl
  | ownerMoved status now hopen hstatus => exact Int.le_add_one le_rfl
  | resumed seconds decisions calls now hresumable => exact Int.le_add_one le_rfl
  | _ => exact le_rfl

/-- A closed task is not changed again. -/
theorem RowStep.eq_of_terminal (h : RowStep P t t') (ht : t.status.terminal = true) : t' = t := by
  have hne : ∀ status, status.terminal = false → t.status ≠ status := by
    rintro status hopen rfl
    rw [ht] at hopen
    exact Bool.noConfusion hopen
  cases h with
  | kept => rfl
  | steered now hopen => exact absurd rfl (hne _ hopen)
  | ownerMoved status now hopen hstatus => exact absurd rfl (hne _ hopen)
  | resumed seconds decisions calls now hresumable =>
    exact absurd rfl (hne _ (terminal_of_resumable hresumable))
  | activated jobId now hqueued => exact absurd hqueued (hne _ rfl)
  | advanced now hqueued => exact absurd hqueued (hne _ rfl)
  | bound workspaceRef now hqueued => exact absurd hqueued (hne _ rfl)
  | begun jobId now hstatus hactive =>
    exact hstatus.elim (fun h => absurd h (hne _ rfl)) fun h => absurd h (hne _ rfl)
  | planned plan summary now hrunning => exact absurd hrunning (hne _ rfl)
  | charged seconds decisions calls now hrunning hdecisions hcalls =>
    exact absurd hrunning (hne _ rfl)
  | moved a now ha hrunning => exact absurd hrunning (hne _ rfl)

/-- Every task keeps its row through a change of the store, up to one step. -/
def RowSteps (Q : Str → TransitionArgs → Prop) (db db' : TaskDb) : Prop :=
  ∀ taskId t, db.task? taskId = some t →
    ∃ t', db'.task? taskId = some t' ∧ RowStep (Q taskId) t t'

variable {Q : Str → TransitionArgs → Prop}

theorem rowSteps_of_tasks_eq {db db' : TaskDb} (h : db'.tasks = db.tasks) : RowSteps Q db db' := by
  intro taskId t ht
  refine ⟨t, ?_, .kept⟩
  rw [TaskDb.task?, h]
  exact ht

theorem task?_updateTask {db : TaskDb} {taskId : Str} {g : AgentTask → Bool}
    {f : Table.Assignment AgentTask.taskId} (k : Str) :
    (db.updateTask taskId g f).2.task? k =
      (db.task? k).map fun t => if k = taskId ∧ g t = true then f.apply t else t :=
  Table.find?_updateKey db.tasks taskId k

theorem rowSteps_updateKey {db db' : TaskDb} {taskId : Str} {g : AgentTask → Bool}
    {f : Table.Assignment AgentTask.taskId}
    (h : db'.tasks = (db.tasks.updateKey taskId g f).2)
    (hstep : ∀ t, db.task? taskId = some t → g t = true → RowStep (Q taskId) t (f.apply t)) :
    RowSteps Q db db' := by
  intro k t ht
  rw [TaskDb.task?, h, Table.find?_updateKey]
  have hfind : db.tasks.find? k = some t := ht
  rw [hfind]
  by_cases hk : k = taskId ∧ g t = true
  · obtain ⟨rfl, hg⟩ := hk
    exact ⟨f.apply t, by simp [hg], hstep t ht hg⟩
  · exact ⟨t, by simp [hk], .kept⟩

theorem rowSteps_commit {α : Type} {T : Transaction TaskDb α} {db : TaskDb}
    (h : ∀ a db', T db = .ok (a, db') → RowSteps Q db db') : RowSteps Q db (T.commit db) := by
  cases hT : T db with
  | error e =>
    rw [Transaction.commit_of_error hT]
    exact rowSteps_of_tasks_eq rfl
  | ok reply =>
    rw [Transaction.commit_of_ok hT]
    exact h _ _ hT

theorem updateTask_fst {db : TaskDb} {taskId : Str} {g : AgentTask → Bool}
    {f : Table.Assignment AgentTask.taskId} :
    (db.updateTask taskId g f).1 = true ↔ ∃ t, db.task? taskId = some t ∧ g t = true :=
  Table.updateKey_fst (f := f)

theorem ownedTask_eq_ok {db : TaskDb} {taskId ownerId : Str} {row : AgentTask} :
    ownedTask db taskId ownerId = .ok row ↔
      db.task? taskId = some row ∧ row.ownerId = ownerId := by
  unfold ownedTask TaskDb.ownedTask?
  cases hrow : db.task? taskId with
  | none => simp
  | some t =>
    by_cases howner : t.ownerId = ownerId
    · simp [Option.filter, howner]
      intro heq
      exact heq ▸ howner
    · simp only [Option.filter, howner, decide_false]
      constructor
      · intro h
        simp at h
      · rintro ⟨heq, hrow⟩
        exact absurd ((Option.some.inj heq) ▸ hrow) howner

theorem writtenTask_eq_ok {db : TaskDb} {taskId : Str} {row : AgentTask} :
    writtenTask db taskId = .ok row ↔ db.task? taskId = some row := by
  unfold writtenTask
  cases hrow : db.task? taskId <;> simp

end Rows

section Owner

variable {db db' : TaskDb} {taskId ownerId : Str} {expected : Int} {now : Instant}

theorem addUserMessage_spec {submissionId content : Str} {row : AgentTask} {fresh : Bool}
    (h : addUserMessage taskId ownerId expected submissionId content now db =
      .ok ((row, fresh), db')) :
    (fresh = false ∧ db' = db) ∨
      fresh = true ∧ ∃ old, db.task? taskId = some old ∧ old.status.terminal = false ∧
        db'.tasks = (db.tasks.updateKey taskId (fun _ => true)
          (steer (if requeues old.status then .queued else old.status) (requeues old.status)
            (isoUtc now))).2 := by
  simp only [addUserMessage, bind_eq_ok, require_eq_ok, decide_eq_true_eq, ownedTask_eq_ok] at h
  obtain ⟨-, -, old, ⟨hold, -⟩, h⟩ := h
  split at h
  · simp only [Except.ok.injEq, Prod.mk.injEq] at h
    obtain ⟨⟨-, rfl⟩, rfl⟩ := h
    exact .inl ⟨rfl, rfl⟩
  · simp only [bind_eq_ok, require_eq_ok, decide_eq_true_eq, Except.ok.injEq, Prod.mk.injEq] at h
    obtain ⟨-, -, -, hopen, -, -, ⟨-, rfl⟩, rfl⟩ := h
    refine .inr ⟨rfl, old, hold, by simpa using hopen, ?_⟩
    cases old.status <;> rfl

theorem ownerTransition_spec {status : TaskStatus} {row : AgentTask}
    (h : ownerTransition taskId ownerId expected status now db = .ok (row, db')) :
    ∃ old, db.task? taskId = some old ∧
      (old.status.terminal = true ∧ db' = db ∨ old.status.terminal = false ∧ db'.tasks =
        (db.tasks.updateKey taskId (fun _ => true) (ownerMove status (isoUtc now))).2) := by
  simp only [ownerTransition, bind_eq_ok, require_eq_ok, ownedTask_eq_ok] at h
  obtain ⟨old, ⟨hold, -⟩, -, -, h⟩ := h
  refine ⟨old, hold, ?_⟩
  split at h
  · next hterminal =>
    simp only [Except.ok.injEq, Prod.mk.injEq] at h
    exact .inl ⟨hterminal, h.2.symm⟩
  · next hopen =>
    simp only [bind_eq_ok, Except.ok.injEq, Prod.mk.injEq] at h
    obtain ⟨-, -, -, rfl⟩ := h
    exact .inr ⟨by simpa using hopen, rfl⟩

theorem continueTask_spec {submissionId : Str} {seconds decisions calls : Int} {row : AgentTask}
    {fresh : Bool} (h : continueTask taskId ownerId expected submissionId seconds decisions calls
      now db = .ok ((row, fresh), db')) :
    (fresh = false ∧ db' = db) ∨
      fresh = true ∧ ∃ old, db.task? taskId = some old ∧ resumable old.status = true ∧
        db'.tasks = (db.tasks.updateKey taskId (fun _ => true)
          (resume seconds decisions calls (isoUtc now))).2 := by
  simp only [continueTask, bind_eq_ok, ownedTask_eq_ok] at h
  obtain ⟨old, ⟨hold, -⟩, h⟩ := h
  split at h
  · simp only [Except.ok.injEq, Prod.mk.injEq] at h
    obtain ⟨⟨-, rfl⟩, rfl⟩ := h
    exact .inl ⟨rfl, rfl⟩
  · simp only [bind_eq_ok, require_eq_ok, Except.ok.injEq, Prod.mk.injEq] at h
    obtain ⟨-, -, -, -, -, hresumable, -, -, ⟨-, rfl⟩, rfl⟩ := h
    exact .inr ⟨rfl, old, hold, hresumable, rfl⟩

end Owner

section Queue

variable {Q : Str → TransitionArgs → Prop} {db : TaskDb} {taskId jobId : Str} {generation : Int} {now : Instant}

theorem createTask_rows (request : TaskRequest) :
    RowSteps Q db ((createTask request taskId now).commit db) := by
  refine rowSteps_commit fun reply db' h => ?_
  simp only [createTask, bind_eq_ok] at h
  obtain ⟨-, -, h⟩ := h
  split at h
  · simp only [bind_eq_ok, Except.ok.injEq, Prod.mk.injEq] at h
    obtain ⟨-, -, -, rfl⟩ := h
    exact rowSteps_of_tasks_eq rfl
  · split at h
    · simp at h
    · next tasks hinsert =>
      simp only [Except.ok.injEq, Prod.mk.injEq] at h
      obtain ⟨-, rfl⟩ := h
      intro k t ht
      refine ⟨t, ?_, .kept⟩
      rw [TaskDb.task?, TaskDb.appendMessage, Table.find?_insert? hinsert]
      have hfresh := (Table.insert?_eq_some hinsert).1
      rw [if_neg]
      · exact ht
      · rintro rfl
        rw [TaskDb.task?, hfresh] at ht
        simp at ht

theorem setActiveJob_rows :
    RowSteps Q db ((setActiveJob taskId jobId generation now).commit db) := by
  refine rowSteps_commit fun reply db' h => ?_
  simp only [setActiveJob, Except.ok.injEq] at h
  refine rowSteps_updateKey (congrArg TaskDb.tasks (congrArg Prod.snd h)).symm fun t _ hg => ?_
  simp only [Bool.and_eq_true, decide_eq_true_eq] at hg
  exact .activated jobId (isoUtc now) hg.2

theorem advanceQueuedGeneration_rows :
    RowSteps Q db ((advanceQueuedGeneration taskId generation now).commit db) := by
  refine rowSteps_commit fun reply db' h => ?_
  simp only [advanceQueuedGeneration, bind_eq_ok, Except.ok.injEq, Prod.mk.injEq] at h
  obtain ⟨-, -, -, -, -, rfl⟩ := h
  refine rowSteps_updateKey rfl fun t _ hg => ?_
  simp only [Bool.and_eq_true, decide_eq_true_eq] at hg
  exact .advanced (isoUtc now) hg.1

theorem setWorkspaceRef_rows (workspaceRef : Str) :
    RowSteps Q db ((setWorkspaceRef taskId workspaceRef now).commit db) := by
  refine rowSteps_commit fun reply db' h => ?_
  simp only [setWorkspaceRef, bind_eq_ok, Except.ok.injEq, Prod.mk.injEq] at h
  obtain ⟨-, -, -, -, -, -, -, rfl⟩ := h
  refine rowSteps_updateKey rfl fun t _ hg => ?_
  simp only [Bool.and_eq_true, decide_eq_true_eq] at hg
  exact .bound (strip workspaceRef) (isoUtc now) hg.1

theorem beginRun_rows : RowSteps Q db ((beginRun taskId jobId generation now).commit db) := by
  refine rowSteps_commit fun reply db' h => ?_
  simp only [beginRun, Except.ok.injEq, Prod.mk.injEq] at h
  obtain ⟨-, rfl⟩ := h
  refine rowSteps_updateKey rfl fun t _ hg => ?_
  simp only [Bool.and_eq_true, Bool.or_eq_true, decide_eq_true_eq, Option.isNone_iff_eq_none] at hg
  exact .begun jobId (isoUtc now) hg.1.2 hg.2

end Queue

section Worker

variable {Q : Str → TransitionArgs → Prop} {db db' : TaskDb} {taskId : Str} {now : Instant} {row : AgentTask}

theorem runningAt_iff {expected : Option Int} {t : AgentTask} :
    runningAt expected t = true ↔ t.status = .running ∧ ∀ r ∈ expected, t.steeringRevision = r := by
  cases expected <;> simp [runningAt]

theorem setPlan_spec {plan summary : Str} {expected : Option Int}
    (h : setPlan taskId plan summary expected now db = .ok (row, db')) :
    (∃ t, db.task? taskId = some t ∧ runningAt expected t = true) ∧
      ∃ plan summary, db' = (db.updateTask taskId (runningAt expected)
        (setPlanTo plan summary (isoUtc now))).2 := by
  simp only [setPlan, bind_eq_ok, require_eq_ok, updateTask_fst, Except.ok.injEq,
    Prod.mk.injEq] at h
  obtain ⟨-, hrunning, -, -, -, rfl⟩ := h
  exact ⟨hrunning, _, _, rfl⟩

theorem consumeUsage_spec {expected seconds decisions calls : Int}
    (h : consumeUsage taskId expected seconds decisions calls now db = .ok (row, db')) :
    ∃ t, db.task? taskId = some t ∧ runningAt (some expected) t = true ∧
      t.modelDecisionsUsed + max 0 decisions ≤ t.modelDecisionsLimit ∧
      t.capabilityCallsUsed + max 0 calls ≤ t.capabilityCallsLimit ∧
      db' = (db.updateTask taskId (fun _ => true)
        (addUsage seconds decisions calls (isoUtc now))).2 := by
  simp only [consumeUsage, bind_eq_ok, require_eq_ok, decide_eq_true_eq, writtenTask_eq_ok,
    Except.ok.injEq, Prod.mk.injEq] at h
  obtain ⟨t, ht, -, hrunning, -, hsteer, -, hbudget, -, -, -, rfl⟩ := h
  exact ⟨t, ht, runningAt_iff.2 ⟨hrunning, by simpa using hsteer⟩, hbudget.1, hbudget.2, rfl⟩

theorem workerTransition_spec {a : TransitionArgs} {expected : Option Int}
    (h : workerTransition taskId a expected now db = .ok (row, db')) :
    (∃ t, db.task? taskId = some t ∧ runningAt expected t = true) ∧
      db' = (db.updateTask taskId (runningAt expected) (moveTask a (isoUtc now))).2 := by
  simp only [workerTransition, bind_eq_ok, require_eq_ok, updateTask_fst, Except.ok.injEq,
    Prod.mk.injEq] at h
  obtain ⟨-, hrunning, -, -, -, rfl⟩ := h
  exact ⟨hrunning, rfl⟩

theorem setPlan_rows {plan summary : Str} {expected : Option Int} :
    RowSteps Q db ((setPlan taskId plan summary expected now).commit db) := by
  refine rowSteps_commit fun row db' h => ?_
  obtain ⟨-, plan, summary, rfl⟩ := setPlan_spec h
  exact rowSteps_updateKey rfl fun t _ hg =>
    .planned plan summary (isoUtc now) (runningAt_iff.1 hg).1

theorem consumeUsage_rows {expected seconds decisions calls : Int} :
    RowSteps Q db ((consumeUsage taskId expected seconds decisions calls now).commit db) := by
  refine rowSteps_commit fun row db' h => ?_
  obtain ⟨t, ht, hrunning, hdecisions, hcalls, rfl⟩ := consumeUsage_spec h
  refine rowSteps_updateKey rfl fun t' ht' _ => ?_
  obtain rfl : t = t' := Option.some.inj (ht.symm.trans ht')
  exact .charged _ _ _ _ (runningAt_iff.1 hrunning).1 hdecisions hcalls

theorem workerTransition_rows {a : TransitionArgs} {expected : Option Int} (ha : Q taskId a) :
    RowSteps Q db ((workerTransition taskId a expected now).commit db) := by
  refine rowSteps_commit fun row db' h => ?_
  obtain ⟨-, rfl⟩ := workerTransition_spec h
  exact rowSteps_updateKey rfl fun t _ hg => .moved a (isoUtc now) ha (runningAt_iff.1 hg).1

end Worker

section Beside

variable [PythonText] {db db' : TaskDb} {now : Instant}

/-- The tables of tasks and grants are left alone. -/
def SameTasks (db db' : TaskDb) : Prop := db'.tasks = db.tasks ∧ db'.grants = db.grants

theorem addMessage_same {message : TaskMessage} {u : Unit}
    (h : addMessage message db = .ok (u, db')) : SameTasks db db' := by
  simp only [addMessage, bind_eq_ok, Except.ok.injEq, Prod.mk.injEq] at h
  obtain ⟨-, -, -, -, -, rfl⟩ := h
  exact ⟨rfl, rfl⟩

omit [PythonText] in
theorem reserveEffect_same {a : EffectReservation} {receiptId : Str}
    {reply : EffectReceipt × Bool} (h : reserveEffect a receiptId now db = .ok (reply, db')) :
    SameTasks db db' := by
  unfold reserveEffect at h
  split at h
  · simp only [bind_eq_ok, Except.ok.injEq, Prod.mk.injEq] at h
    obtain ⟨-, -, -, rfl⟩ := h
    exact ⟨rfl, rfl⟩
  · simp only [bind_eq_ok] at h
    obtain ⟨-, -, h⟩ := h
    split at h
    · simp at h
    · simp only [Except.ok.injEq, Prod.mk.injEq] at h
      obtain ⟨-, rfl⟩ := h
      exact ⟨rfl, rfl⟩

theorem finishEffect_spec {taskId logicalId : Str} {state : EffectState}
    {result : List (Str × Json)} {row : EffectReceipt}
    (h : finishEffect taskId logicalId state result now db = .ok (row, db')) :
    ∃ stored, storedResult result = .ok stored ∧ (db.effect? taskId logicalId).isSome ∧
      db' = { db with effects := (db.effects.updateKey (taskId, logicalId) (fun _ => true)
        (recordEffect state stored (isoUtc now))).2 } := by
  simp only [finishEffect, bind_eq_ok, require_eq_ok, Table.updateKey_fst] at h
  obtain ⟨-, -, stored, hstored, -, ⟨old, hold, -⟩, h⟩ := h
  refine ⟨stored, hstored, by simp [TaskDb.effect?, hold], ?_⟩
  split at h
  · simp only [Except.ok.injEq, Prod.mk.injEq] at h
    exact h.2.symm
  · simp at h

omit [PythonText] in
/-- A rule that is learnt from a task is saved only while the task runs as the worker knows it. -/
theorem learningBoundary_eq_ok {taskId : Option Str} {expected : Option Int} {u : Unit} :
    learningBoundary db taskId expected = .ok u ↔ ∀ k ∈ taskId, ∃ t, db.task? k = some t ∧
      runningAt (some (expected.getD 0)) t = true := by
  cases taskId with
  | none => simp [learningBoundary]
  | some k => simp [learningBoundary, Option.any_eq_true]

theorem savePreference_spec {a : PreferenceArgs} {freshId : Str} {saved : UserPreference}
    (h : savePreference a freshId now db = .ok (saved, db')) :
    learningBoundary db a.taskId a.expected = .ok () ∧ SameTasks db db' := by
  simp only [savePreference, bind_eq_ok, Except.ok.injEq, Prod.mk.injEq] at h
  obtain ⟨-, -, -, -, _, hboundary, -, -, -, rfl⟩ := h
  exact ⟨hboundary, rfl, rfl⟩

theorem saveSkillRevision_spec {a : SkillArgs} {saved : UserSkillRevision}
    (h : saveSkillRevision a now db = .ok (saved, db')) :
    learningBoundary db a.taskId a.expected = .ok () ∧ SameTasks db db' := by
  simp only [saveSkillRevision, bind_eq_ok, Except.ok.injEq, Prod.mk.injEq] at h
  obtain ⟨-, -, -, -, _, hboundary, -, rfl⟩ := h
  exact ⟨hboundary, rfl, rfl⟩

end Beside

section Requests

variable [PythonText] {Q : Str → TransitionArgs → Prop}

/-- The task and the revision that a worker's write is guarded by. -/
def Op.fence : Op → Option (Str × Int)
  | .consumeUsage taskId expected .. => some (taskId, expected)
  | .setPlan taskId _ _ expected => expected.map fun r => (taskId, r)
  | .workerTransition taskId _ expected => expected.map fun r => (taskId, r)
  | .savePreference a => a.taskId.map fun taskId => (taskId, a.expected.getD 0)
  | .saveSkillRevision a => a.taskId.map fun taskId => (taskId, a.expected.getD 0)
  | _ => none

/-- The request has been carried out: its transaction committed. -/
def Op.tookEffect : (op : Op) → op.Reply → Bool
  | .consumeUsage .., reply => reply.isOk
  | .setPlan .., reply => reply.isOk
  | .workerTransition .., reply => reply.isOk
  | .savePreference _, reply => reply.isOk
  | .saveSkillRevision _, reply => reply.isOk
  | .finishEffect .., reply => reply.isOk
  | _, _ => false

omit [PythonText] in
theorem onTasks_rows {α : Type} {T : Transaction TaskDb α} {s : Store}
    (h : RowSteps Q s.tasks (T.commit s.tasks)) : RowSteps Q s.tasks (onTasks T s).2.tasks := h

omit [PythonText] in
theorem onReviews_rows {α : Type} {T : Transaction ReviewDb α} {s : Store} :
    RowSteps Q s.tasks (onReviews T s).2.tasks := rowSteps_of_tasks_eq rfl

omit [PythonText] in
theorem onJobs_rows {α : Type} {T : Transaction Jobs.JobLedger α} {s : Store} :
    RowSteps Q s.tasks (onJobs T s).2.tasks := rowSteps_of_tasks_eq rfl

/-- A request moves every task by at most one step of its row. -/
theorem exec_rows (env : Env) (op : Op) (s : Store)
    (hQ : ∀ taskId a expected, op = .workerTransition taskId a expected → Q taskId a) :
    RowSteps Q s.tasks (exec env op s).2.tasks := by
  cases op with
  | beginRun taskId jobId generation => exact onTasks_rows beginRun_rows
  | consumeUsage taskId expected seconds decisions calls => exact onTasks_rows consumeUsage_rows
  | setPlan taskId plan summary expected => exact onTasks_rows setPlan_rows
  | workerTransition taskId a expected => exact onTasks_rows (workerTransition_rows (hQ taskId a expected rfl))
  | appendMessage message =>
    exact onTasks_rows (rowSteps_commit fun _ _ h => rowSteps_of_tasks_eq (addMessage_same h).1)
  | reserveEffect a =>
    refine onTasks_rows ?_
    rw [Transaction.commit_mapReply]
    exact rowSteps_commit fun _ _ h => rowSteps_of_tasks_eq (reserveEffect_same h).1
  | finishEffect taskId logicalId state result =>
    refine onTasks_rows (rowSteps_commit fun _ _ h => ?_)
    obtain ⟨_, -, -, rfl⟩ := finishEffect_spec h
    exact rowSteps_of_tasks_eq rfl
  | savePreference a =>
    exact onTasks_rows
      (rowSteps_commit fun _ _ h => rowSteps_of_tasks_eq (savePreference_spec h).2.1)
  | saveSkillRevision a =>
    exact onTasks_rows
      (rowSteps_commit fun _ _ h => rowSteps_of_tasks_eq (saveSkillRevision_spec h).2.1)
  | claimJobs workerId lease => exact onJobs_rows
  | completeJob jobId workerId token => exact onJobs_rows
  | acknowledgeCancel jobId workerId token => exact onJobs_rows
  | retryJob jobId workerId errorCode delay token => exact onJobs_rows
  | expireDue => exact onReviews_rows
  | createActionProposal prepared => exact onReviews_rows
  | _ => exact rowSteps_of_tasks_eq rfl

omit [PythonText] in
theorem isOk_reply {α : Type} {T : Transaction TaskDb α} {db : TaskDb}
    (h : (T.reply db).isOk = true) : ∃ a, T db = .ok (a, T.commit db) := by
  cases hreply : T.reply db with
  | error e => simp [hreply, Except.isOk, Except.toBool] at h
  | ok a => exact ⟨a, Transaction.reply_eq_ok.1 hreply⟩

omit [PythonText] in
theorem onTasks_of_not_ok {α : Type} {T : Transaction TaskDb α} {s : Store}
    (h : ¬ (T.reply s.tasks).isOk = true) : (onTasks T s).2.tasks = s.tasks := by
  cases hrun : T s.tasks with
  | error e => exact Transaction.commit_of_error hrun
  | ok p => exact absurd (by simp [Transaction.reply, hrun, Except.map, Except.isOk, Except.toBool]) h

/-- A guarded write takes effect only on a running task at the revision that it expects. -/
theorem fence_of_tookEffect {env : Env} {op : Op} {s : Store} {taskId : Str} {r : Int}
    (hfence : op.fence = some (taskId, r))
    (h : op.tookEffect (exec env op s).1 = true) :
    ∃ t, s.tasks.task? taskId = some t ∧ runningAt (some r) t = true := by
  cases op with
  | consumeUsage k expected seconds decisions calls =>
    obtain ⟨rfl, rfl⟩ : k = taskId ∧ expected = r := by simpa [Op.fence] using hfence
    obtain ⟨row, hrow⟩ := isOk_reply h
    obtain ⟨t, ht, hrunning, -⟩ := consumeUsage_spec hrow
    exact ⟨t, ht, hrunning⟩
  | setPlan k plan summary expected =>
    obtain ⟨r', rfl, rfl, rfl⟩ : ∃ r', expected = some r' ∧ k = taskId ∧ r' = r := by
      simpa [Op.fence] using hfence
    obtain ⟨row, hrow⟩ := isOk_reply h
    exact (setPlan_spec hrow).1
  | workerTransition k a expected =>
    obtain ⟨r', rfl, rfl, rfl⟩ : ∃ r', expected = some r' ∧ k = taskId ∧ r' = r := by
      simpa [Op.fence] using hfence
    obtain ⟨row, hrow⟩ := isOk_reply h
    exact (workerTransition_spec hrow).1
  | savePreference a =>
    obtain ⟨k, hk, rfl, rfl⟩ : ∃ k, a.taskId = some k ∧ k = taskId ∧ a.expected.getD 0 = r := by
      simpa [Op.fence] using hfence
    obtain ⟨row, hrow⟩ := isOk_reply h
    exact learningBoundary_eq_ok.1 (savePreference_spec hrow).1 k hk
  | saveSkillRevision a =>
    obtain ⟨k, hk, rfl, rfl⟩ : ∃ k, a.taskId = some k ∧ k = taskId ∧ a.expected.getD 0 = r := by
      simpa [Op.fence] using hfence
    obtain ⟨row, hrow⟩ := isOk_reply h
    exact learningBoundary_eq_ok.1 (saveSkillRevision_spec hrow).1 k hk
  | _ => exact absurd hfence (by simp [Op.fence])

end Requests

section Acts

variable [PythonText] {Q : Str → TransitionArgs → Prop} {s : Store}

omit [PythonText] in
theorem task?_of_update {db db' : TaskDb} {taskId : Str} {t : AgentTask}
    {f : Table.Assignment AgentTask.taskId}
    (h : db'.tasks = (db.tasks.updateKey taskId (fun _ => true) f).2)
    (ht : db.task? taskId = some t) : db'.task? taskId = some (f.apply t) := by
  have hfind : db.tasks.find? taskId = some t := ht
  rw [TaskDb.task?, h, Table.find?_updateKey, hfind]
  simp

/-- The row of a task before and after an owner command that commits. -/
def Commanded (db db' : TaskDb) (taskId : Str) : Prop :=
  ∃ t t', db.task? taskId = some t ∧ db'.task? taskId = some t' ∧
    (t'.steeringRevision = t.steeringRevision + 1 ∨ t'.status.terminal = true)

omit [PythonText] in
theorem ownerTransition_commanded {taskId ownerId : Str} {expected : Int} {status : TaskStatus}
    {row : AgentTask} {now : Instant} {db db' : TaskDb}
    (h : ownerTransition taskId ownerId expected status now db = .ok (row, db')) :
    Commanded db db' taskId := by
  obtain ⟨old, hold, ⟨hterminal, rfl⟩ | ⟨-, htasks⟩⟩ := ownerTransition_spec h
  · exact ⟨old, old, hold, hold, .inr hterminal⟩
  · exact ⟨old, _, hold, task?_of_update htasks hold, .inl rfl⟩

omit [PythonText] in
/-- An owner command that commits moves the steering revision by one, or finds the task closed. -/
theorem owner_commanded {c : OwnerCommand} {now : Instant} {db : TaskDb}
    (h : (c.run now).reply db = .ok true) :
    Commanded db ((c.run now).commit db) c.taskId := by
  cases c with
  | addUserMessage taskId ownerId expected submissionId content =>
    obtain ⟨⟨row, fresh⟩, hrun, rfl⟩ := Transaction.reply_mapReply_eq_ok.1 h
    rw [OwnerCommand.run, Transaction.commit_mapReply]
    obtain ⟨hfresh, -⟩ | ⟨-, old, hold, -, htasks⟩ := addUserMessage_spec hrun
    · exact absurd hfresh (by simp)
    · exact ⟨old, _, hold, task?_of_update htasks hold, .inl rfl⟩
  | pause taskId ownerId expected =>
    rw [OwnerCommand.run, Transaction.reply_mapReply_eq_ok] at h
    obtain ⟨row, hrun, -⟩ := h
    rw [OwnerCommand.run, Transaction.commit_mapReply]
    exact ownerTransition_commanded hrun
  | cancel taskId ownerId expected =>
    rw [OwnerCommand.run, Transaction.reply_mapReply_eq_ok] at h
    obtain ⟨row, hrun, -⟩ := h
    rw [OwnerCommand.run, Transaction.commit_mapReply]
    exact ownerTransition_commanded hrun
  | continueTask taskId ownerId expected submissionId seconds decisions calls =>
    obtain ⟨⟨row, fresh⟩, hrun, rfl⟩ := Transaction.reply_mapReply_eq_ok.1 h
    rw [OwnerCommand.run, Transaction.commit_mapReply]
    obtain ⟨hfresh, -⟩ | ⟨-, old, hold, -, htasks⟩ := continueTask_spec hrun
    · exact absurd hfresh (by simp)
    · exact ⟨old, _, hold, task?_of_update htasks hold, .inl rfl⟩

omit [PythonText] in
theorem ownerTransition_rows {taskId ownerId : Str} {expected : Int} {status : TaskStatus}
    {now : Instant} {db : TaskDb} (hstatus : status = .pausedUser ∨ status = .cancelled) :
    RowSteps Q db ((ownerTransition taskId ownerId expected status now).commit db) := by
  refine rowSteps_commit fun row db' h => ?_
  obtain ⟨old, hold, ⟨-, rfl⟩ | ⟨hopen, htasks⟩⟩ := ownerTransition_spec h
  · exact rowSteps_of_tasks_eq rfl
  · refine rowSteps_updateKey htasks fun t ht _ => ?_
    obtain rfl : old = t := Option.some.inj (hold.symm.trans ht)
    exact .ownerMoved status (isoUtc now) hopen hstatus

omit [PythonText] in
theorem owner_rows {c : OwnerCommand} {now : Instant} {db : TaskDb} :
    RowSteps Q db ((c.run now).commit db) := by
  cases c with
  | addUserMessage taskId ownerId expected submissionId content =>
    rw [OwnerCommand.run, Transaction.commit_mapReply]
    refine rowSteps_commit fun reply db' h => ?_
    obtain ⟨-, rfl⟩ | ⟨-, old, hold, hopen, htasks⟩ := addUserMessage_spec h
    · exact rowSteps_of_tasks_eq rfl
    · refine rowSteps_updateKey htasks fun t ht _ => ?_
      obtain rfl : old = t := Option.some.inj (hold.symm.trans ht)
      exact .steered (isoUtc now) hopen
  | pause taskId ownerId expected =>
    rw [OwnerCommand.run, Transaction.commit_mapReply]
    exact ownerTransition_rows (.inl rfl)
  | cancel taskId ownerId expected =>
    rw [OwnerCommand.run, Transaction.commit_mapReply]
    exact ownerTransition_rows (.inr rfl)
  | continueTask taskId ownerId expected submissionId seconds decisions calls =>
    rw [OwnerCommand.run, Transaction.commit_mapReply]
    refine rowSteps_commit fun reply db' h => ?_
    obtain ⟨-, rfl⟩ | ⟨-, old, hold, hresumable, htasks⟩ := continueTask_spec h
    · exact rowSteps_of_tasks_eq rfl
    · refine rowSteps_updateKey htasks fun t ht _ => ?_
      obtain rfl : old = t := Option.some.inj (hold.symm.trans ht)
      exact .resumed _ _ _ _ hresumable

/-- Whatever happens outside moves every task by at most one step of its row. -/
theorem act_rows (o : Outside) : RowSteps Q s.tasks (act o s).2.tasks := by
  cases o with
  | owner c now => exact owner_rows
  | createTask request taskId now => exact createTask_rows request
  | setActiveJob taskId jobId generation now => exact setActiveJob_rows
  | advanceQueuedGeneration taskId generation now => exact advanceQueuedGeneration_rows
  | setWorkspaceRef taskId workspaceRef now => exact setWorkspaceRef_rows workspaceRef
  | reviews c => exact rowSteps_of_tasks_eq rfl

end Acts

end HardyAI.Tasks
