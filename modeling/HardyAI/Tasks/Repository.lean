import HardyAI.Tasks.Types

/-! The operations of the task repository. Each is one transaction over the task
store. -/

open Foundation Foundation.Json

namespace HardyAI.Tasks

section Statements

namespace TaskDb

def task? (db : TaskDb) (taskId : Str) : Option AgentTask := db.tasks.find? taskId

def effect? (db : TaskDb) (taskId logicalOperationId : Str) : Option EffectReceipt :=
  db.effects.find? (taskId, logicalOperationId)

/-- `get_task` with its owner. -/
def ownedTask? (db : TaskDb) (taskId ownerId : Str) : Option AgentTask :=
  (db.task? taskId).filter (·.ownerId = ownerId)

def updateTask (db : TaskDb) (taskId : Str) (g : AgentTask → Bool)
    (f : Table.Assignment AgentTask.taskId) : Bool × TaskDb :=
  let updated := db.tasks.updateKey taskId g f
  (updated.1, { db with tasks := updated.2 })

def appendMessage (db : TaskDb) (message : TaskMessage) : TaskDb :=
  { db with messages := db.messages ++ [message] }

end TaskDb

/-- `append_message`, whose task is a foreign key. -/
def addMessage [PythonText] (message : TaskMessage) : Transaction TaskDb Unit := fun db => do
  let _ ← dump true (.arr (message.toolCalls.getD []))
  require (db.task? message.taskId).isSome .integrityError
  .ok ((), db.appendMessage message)

/-- `list_effects`, in the order of their creation. -/
def listEffects (db : TaskDb) (taskId : Str) : List EffectReceipt :=
  (db.effects.rows.filter (·.taskId = taskId)).insertionSort fun a b => a.createdAt ≤ b.createdAt

def ownedTask (db : TaskDb) (taskId ownerId : Str) : Except PyError AgentTask :=
  match db.ownedTask? taskId ownerId with
  | some task => .ok task
  | none => .error (.keyError "task_not_found")

/-- The row that the transaction has just written. -/
def writtenTask (db : TaskDb) (taskId : Str) : Except PyError AgentTask :=
  match db.task? taskId with
  | some task => .ok task
  | none => .error (.keyError "task_not_found")

end Statements

section Owner

structure TaskRequest where
  ownerId : Str
  sourceInterface : Str
  submissionId : Str
  goal : Str
  title : Str
  sessionId : Option Str
  workspaceRef : Str
  budgetSeconds : Int
  modelDecisions : Int
  capabilityCalls : Int

def TaskRequest.row (request : TaskRequest) (taskId now : Str) : AgentTask where
  taskId := taskId
  ownerId := strip request.ownerId
  sourceInterface := if request.sourceInterface = [] then "local" else strip request.sourceInterface
  sessionId := if strip (request.sessionId.getD []) = [] then none
    else some (strip (request.sessionId.getD []))
  submissionId := strip request.submissionId
  title := (strip (if request.title = [] then (strip request.goal).take 100
    else request.title)).take 160
  goal := strip request.goal
  status := .queued
  revision := 1
  steeringRevision := 0
  runGeneration := 1
  activeJobId := none
  planMarkdown := []
  progressSummary := []
  finalResult := none
  errorCode := none
  waitingPrompt := none
  workspaceRef := request.workspaceRef
  budgetSecondsTotal := max 1000000 request.budgetSeconds
  budgetSecondsUsed := 0
  modelDecisionsLimit := max 1 request.modelDecisions
  modelDecisionsUsed := 0
  capabilityCallsLimit := max 1 request.capabilityCalls
  capabilityCallsUsed := 0
  createdAt := now
  updatedAt := now
  startedAt := none
  completedAt := none
  cancelledAt := none

def createTask (request : TaskRequest) (taskId : Str) (now : Instant) :
    Transaction TaskDb (AgentTask × Bool) := fun db => do
  let row := request.row taskId (isoUtc now)
  require (row.ownerId ≠ [] ∧ row.submissionId ≠ [] ∧ row.goal ≠ [])
    (.valueError "task_identity_or_goal_missing")
  match db.tasks.rows.find? fun t => t.ownerId = row.ownerId ∧ t.submissionId = row.submissionId with
  | some existing =>
    require (existing.goal = row.goal ∧ existing.sourceInterface = strip request.sourceInterface)
      (.taskConflictError "task_submission_id_conflict")
    .ok ((existing, false), db)
  | none =>
    match db.tasks.insert? row with
    | none => .error .integrityError
    | some tasks =>
      let message : TaskMessage :=
        { taskId, role := .user, content := row.goal, submissionId := some row.submissionId }
      .ok ((row, true), { db with tasks }.appendMessage message)

/-- An owner command moves the steering revision by one. -/
def steer (status : TaskStatus) (requeue : Bool) (now : Str) :
    Table.Assignment AgentTask.taskId where
  apply t := { t with
    status, revision := t.revision + 1, steeringRevision := t.steeringRevision + 1
    runGeneration := if requeue then t.runGeneration + 1 else t.runGeneration
    waitingPrompt := none, activeJobId := if requeue then none else t.activeJobId
    updatedAt := now }

def addUserMessage (taskId ownerId : Str) (expectedRevision : Int) (submissionId content : Str)
    (now : Instant) : Transaction TaskDb (AgentTask × Bool) := fun db => do
  require (strip content ≠ []) (.valueError "task_message_empty")
  let row ← ownedTask db taskId ownerId
  if db.messages.any fun m => m.taskId = taskId && m.role = .user &&
      m.submissionId = some submissionId then .ok ((row, false), db)
  else
    require (row.revision = expectedRevision) (.taskConflictError "task_revision_conflict")
    require (!row.status.terminal) (.taskConflictError "task_terminal")
    let requeue : Bool := row.status = .waitingInput || row.status = .waitingApproval ||
      row.status = .failed
    let (_, db) := db.updateTask taskId (fun _ => true)
      (steer (if requeue then .queued else row.status) requeue (isoUtc now))
    let db := db.appendMessage
      { taskId, role := .user, content := strip content, submissionId := some submissionId }
    let updated ← writtenTask db taskId
    .ok ((updated, true), db)

def ownerMove (status : TaskStatus) (now : Str) : Table.Assignment AgentTask.taskId where
  apply t := { t with
    status, revision := t.revision + 1, steeringRevision := t.steeringRevision + 1
    updatedAt := now
    cancelledAt := if status = .cancelled then some now else t.cancelledAt }

/-- `_owner_transition`. -/
def ownerTransition (taskId ownerId : Str) (expectedRevision : Int) (status : TaskStatus)
    (now : Instant) : Transaction TaskDb AgentTask := fun db => do
  let row ← ownedTask db taskId ownerId
  require (row.revision = expectedRevision) (.taskConflictError "task_revision_conflict")
  if row.status.terminal then .ok (row, db)
  else
    let (_, db) := db.updateTask taskId (fun _ => true) (ownerMove status (isoUtc now))
    let updated ← writtenTask db taskId
    .ok (updated, db)

def pause (taskId ownerId : Str) (expectedRevision : Int) (now : Instant) :
    Transaction TaskDb AgentTask := ownerTransition taskId ownerId expectedRevision .pausedUser now

def cancel (taskId ownerId : Str) (expectedRevision : Int) (now : Instant) :
    Transaction TaskDb AgentTask := ownerTransition taskId ownerId expectedRevision .cancelled now

def resumable : TaskStatus → Bool
  | .pausedBudget | .pausedUser | .waitingInput | .waitingApproval | .failed => true
  | .queued | .running | .completed | .cancelled => false

def resume (seconds decisions calls : Int) (now : Str) : Table.Assignment AgentTask.taskId where
  apply t := { t with
    status := .queued, revision := t.revision + 1, steeringRevision := t.steeringRevision + 1
    runGeneration := t.runGeneration + 1, activeJobId := none
    budgetSecondsTotal := t.budgetSecondsTotal + max 0 seconds
    modelDecisionsLimit := t.modelDecisionsLimit + max 0 decisions
    capabilityCallsLimit := t.capabilityCallsLimit + max 0 calls
    waitingPrompt := none, errorCode := none, updatedAt := now }

def continueTask (taskId ownerId : Str) (expectedRevision : Int) (submissionId : Str)
    (addSeconds addModelDecisions addCapabilityCalls : Int) (now : Instant) :
    Transaction TaskDb (AgentTask × Bool) := fun db => do
  let row ← ownedTask db taskId ownerId
  if db.grants.any fun g => g.taskId = taskId && g.submissionId = submissionId then
    .ok ((row, false), db)
  else
    require (row.revision = expectedRevision) (.taskConflictError "task_revision_conflict")
    require (!row.status.terminal) (.taskConflictError "task_terminal")
    require (resumable row.status) (.taskConflictError "task_not_resumable")
    let grant : BudgetGrant := ⟨taskId, submissionId, max 0 addSeconds, max 0 addModelDecisions,
      max 0 addCapabilityCalls, ownerId, isoUtc now⟩
    let (_, db) := { db with grants := db.grants ++ [grant] }.updateTask taskId (fun _ => true)
      (resume addSeconds addModelDecisions addCapabilityCalls (isoUtc now))
    let updated ← writtenTask db taskId
    .ok ((updated, true), db)

end Owner

section Queue

def setActive (jobId now : Str) : Table.Assignment AgentTask.taskId where
  apply t := { t with activeJobId := some jobId, updatedAt := now }

def setActiveJob (taskId jobId : Str) (generation : Int) (now : Instant) :
    Transaction TaskDb Bool := fun db =>
  .ok (db.updateTask taskId (fun t => t.runGeneration = generation && t.status = .queued)
    (setActive jobId (isoUtc now)))

def advanceGeneration (now : Str) : Table.Assignment AgentTask.taskId where
  apply t := { t with
    runGeneration := t.runGeneration + 1, activeJobId := none, revision := t.revision + 1
    updatedAt := now }

def advanceQueuedGeneration (taskId : Str) (expectedGeneration : Int) (now : Instant) :
    Transaction TaskDb AgentTask := fun db => do
  let (changed, db) := db.updateTask taskId
    (fun t => t.status = .queued && t.runGeneration = expectedGeneration)
    (advanceGeneration (isoUtc now))
  require changed (.taskConflictError "task_queue_generation_changed")
  let row ← writtenTask db taskId
  .ok (row, db)

def bindWorkspace (workspaceRef now : Str) : Table.Assignment AgentTask.taskId where
  apply t := { t with workspaceRef, updatedAt := now }

def setWorkspaceRef (taskId workspaceRef : Str) (now : Instant) : Transaction TaskDb AgentTask :=
  fun db => do
  require (strip workspaceRef ≠ []) (.valueError "task_workspace_ref_invalid")
  let (changed, db) := db.updateTask taskId
    (fun t => t.status = .queued && t.activeJobId.isNone)
    (bindWorkspace (strip workspaceRef) (isoUtc now))
  require changed (.valueError "task_workspace_binding_conflict")
  let row ← writtenTask db taskId
  .ok (row, db)

def startRun (jobId now : Str) : Table.Assignment AgentTask.taskId where
  apply t := { t with
    status := .running, revision := t.revision + 1, activeJobId := some jobId
    startedAt := some (t.startedAt.getD now), updatedAt := now }

/-- `begin_run`: a task that is already running under the job is accepted again. -/
def beginRun (taskId jobId : Str) (generation : Int) (now : Instant) :
    Transaction TaskDb (Option AgentTask) := fun db =>
  let updated := db.updateTask taskId
    (fun t => t.runGeneration = generation && (t.status = .queued || t.status = .running) &&
      (t.activeJobId.isNone || t.activeJobId = some jobId))
    (startRun jobId (isoUtc now))
  let row := (updated.2.task? taskId).filter fun t =>
    t.activeJobId.getD [] = jobId && t.runGeneration = generation
  .ok (row, updated.2)

end Queue

section Worker

/-- The guard of a worker's write: `None` expects no revision. -/
def runningAt (expected : Option Int) (t : AgentTask) : Bool :=
  t.status = .running && expected.all (t.steeringRevision = ·)

def setPlanTo (plan summary now : Str) : Table.Assignment AgentTask.taskId where
  apply t := { t with
    planMarkdown := plan, progressSummary := if summary = [] then t.progressSummary else summary
    revision := t.revision + 1, updatedAt := now }

def setPlan (taskId planMarkdown progressSummary : Str) (expected : Option Int) (now : Instant) :
    Transaction TaskDb AgentTask := fun db => do
  let (changed, db) := db.updateTask taskId (runningAt expected)
    (setPlanTo ((strip planMarkdown).take 20000) ((strip progressSummary).take 2000) (isoUtc now))
  require changed (.taskConflictError "task_not_running_or_steering_changed")
  let row ← writtenTask db taskId
  .ok (row, db)

/-- `budget_available`: the reason why no budget is left. -/
def exhausted (t : AgentTask) : Option Str :=
  if t.budgetSecondsUsed ≥ t.budgetSecondsTotal then some "active_time_exhausted"
  else if t.modelDecisionsUsed ≥ t.modelDecisionsLimit then some "model_decisions_exhausted"
  else if t.capabilityCallsUsed ≥ t.capabilityCallsLimit then some "capability_calls_exhausted"
  else none

def addUsage (seconds decisions calls : Int) (now : Str) : Table.Assignment AgentTask.taskId where
  apply t := { t with
    budgetSecondsUsed := t.budgetSecondsUsed + max 0 seconds
    modelDecisionsUsed := t.modelDecisionsUsed + max 0 decisions
    capabilityCallsUsed := t.capabilityCallsUsed + max 0 calls, updatedAt := now }

def consumeUsage (taskId : Str) (expected : Int) (activeSeconds modelDecisions
    capabilityCalls : Int) (now : Instant) : Transaction TaskDb AgentTask := fun db => do
  let row ← writtenTask db taskId
  require (row.status = .running) (.taskConflictError "task_not_running")
  require (row.steeringRevision = expected) (.taskConflictError "task_steering_changed")
  require (row.modelDecisionsUsed + max 0 modelDecisions ≤ row.modelDecisionsLimit ∧
    row.capabilityCallsUsed + max 0 capabilityCalls ≤ row.capabilityCallsLimit)
    (.taskConflictError "task_budget_exhausted")
  let (_, db) := db.updateTask taskId (fun _ => true)
    (addUsage activeSeconds modelDecisions capabilityCalls (isoUtc now))
  let updated ← writtenTask db taskId
  .ok (updated, db)

structure TransitionArgs where
  status : TaskStatus
  summary : Str := []
  finalResult : Option Str := none
  waitingPrompt : Option Str := none
  errorCode : Option Str := none

def moveTask (a : TransitionArgs) (now : Str) : Table.Assignment AgentTask.taskId where
  apply t := { t with
    status := a.status, revision := t.revision + 1
    progressSummary := if a.summary.take 2000 = [] then t.progressSummary
      else a.summary.take 2000
    finalResult := a.finalResult.or t.finalResult, waitingPrompt := a.waitingPrompt
    errorCode := a.errorCode, activeJobId := none, updatedAt := now
    completedAt := if a.status = .completed then some now else t.completedAt
    cancelledAt := if a.status = .cancelled then some now else t.cancelledAt }

def workerTransition (taskId : Str) (a : TransitionArgs) (expected : Option Int) (now : Instant) :
    Transaction TaskDb AgentTask := fun db => do
  let (changed, db) := db.updateTask taskId (runningAt expected) (moveTask a (isoUtc now))
  require changed (.taskConflictError "task_not_running_or_steering_changed")
  let row ← writtenTask db taskId
  .ok (row, db)

end Worker

section Effects

structure EffectReservation where
  taskId : Str
  logicalOperationId : Str
  providerOperationId : Str
  toolId : Str
  argumentsHash : Str
  runId : Option Str

def EffectReservation.row (a : EffectReservation) (receiptId now : Str) : EffectReceipt where
  taskId := a.taskId
  logicalOperationId := a.logicalOperationId
  receiptId := receiptId
  providerOperationId := a.providerOperationId
  toolId := a.toolId
  argumentsHash := a.argumentsHash
  state := .reserved
  result := .obj []
  runId := a.runId
  createdAt := now
  updatedAt := now

def reserveEffect (a : EffectReservation) (receiptId : Str) (now : Instant) :
    Transaction TaskDb (EffectReceipt × Bool) := fun db => do
  match db.effect? a.taskId a.logicalOperationId with
  | some existing =>
    require (existing.toolId = a.toolId ∧ existing.argumentsHash = a.argumentsHash ∧
      existing.providerOperationId = a.providerOperationId)
      (.taskConflictError "task_effect_operation_conflict")
    .ok ((existing, false), db)
  | none =>
    require (db.task? a.taskId).isSome .integrityError
    match db.effects.insertApart? (fun r => r.receiptId = receiptId)
      (a.row receiptId (isoUtc now)) with
    | none => .error .integrityError
    | some effects => .ok ((a.row receiptId (isoUtc now), true), { db with effects })

/-- What `finish_effect` stores of a result, whose text may be too long. -/
def storedResult [PythonText] (result : List (Str × Json)) : Except PyError Json := do
  let encoded ← dump true (.obj result)
  if encoded.length > 64000 then
    .ok (.obj [("status", (lookup result "status").getD .null), ("truncated", .bool true)])
  else .ok (.obj result)

def recordEffect (state : EffectState) (result : Json) (now : Str) :
    Table.Assignment EffectReceipt.key where
  apply r := { r with state, result, updatedAt := now }

def finishEffect [PythonText] (taskId logicalOperationId : Str) (state : EffectState)
    (result : List (Str × Json)) (now : Instant) : Transaction TaskDb EffectReceipt := fun db => do
  require (state ≠ .reserved) (.valueError "task_effect_state_invalid")
  let stored ← storedResult result
  let updated := db.effects.updateKey (taskId, logicalOperationId) (fun _ => true)
    (recordEffect state stored (isoUtc now))
  require updated.1 (.keyError "task_effect_not_found")
  match updated.2.find? (taskId, logicalOperationId) with
  | some row => .ok (row, { db with effects := updated.2 })
  | none => .error (.keyError "task_effect_not_found")

end Effects

section Learning

/-- The task that a learnt rule is saved from, at the revision the worker has read. -/
def learningBoundary (db : TaskDb) (taskId : Option Str) (expected : Option Int) :
    Except PyError Unit :=
  match taskId with
  | none => .ok ()
  | some taskId => require ((db.task? taskId).any (runningAt (some (expected.getD 0))))
      (.taskConflictError "task_not_running_or_steering_changed")

structure PreferenceArgs where
  ownerId : Str
  scope : Str
  ruleText : Str
  sourceInstruction : Str
  skillId : Option Str := none
  preferenceId : Option Str := none
  active : Bool := true
  taskId : Option Str := none
  expected : Option Int := none

def savePreference [PythonText] (a : PreferenceArgs) (freshId : Str) (now : Instant) :
    Transaction TaskDb UserPreference := fun db => do
  let scope := PythonText.casefold (strip a.scope)
  require ([text "general", text "project", text "skill"].contains scope)
    (.valueError "preference_scope_invalid")
  let rule := strip a.ruleText
  require (rule ≠ [] ∧ rule.length ≤ 4000) (.valueError "preference_rule_invalid")
  let stableId := if a.preferenceId.getD [] = [] then freshId else a.preferenceId.getD []
  learningBoundary db a.taskId a.expected
  require (db.preferences.all fun p => p.preferenceId ≠ stableId || p.ownerId = a.ownerId)
    (.taskConflictError "preference_owner_conflict")
  let same (p : UserPreference) : Bool := p.ownerId = a.ownerId && p.preferenceId = stableId
  let saved : UserPreference :=
    { preferenceId := stableId
      revision := ((db.preferences.filter same).map (·.revision)).foldl max 0 + 1
      ownerId := a.ownerId, scope
      skillId := if strip (a.skillId.getD []) = [] then none else some (strip (a.skillId.getD []))
      ruleText := rule
      sourceInstruction := (strip (if a.sourceInstruction = [] then rule
        else a.sourceInstruction)).take 4000
      active := a.active, createdAt := isoUtc now }
  .ok (saved, { db with preferences :=
    (db.preferences.map fun p => if same p then { p with active := false } else p) ++ [saved] })

structure SkillArgs where
  ownerId : Str
  skillId : Str
  title : Str
  instructionsMarkdown : Str
  sourceInstruction : Str
  baseSkillId : Option Str := none
  active : Bool := true
  taskId : Option Str := none
  expected : Option Int := none

def saveSkillRevision [PythonText] (a : SkillArgs) (now : Instant) :
    Transaction TaskDb UserSkillRevision := fun db => do
  let skillId := PythonText.casefold (strip a.skillId)
  let content := strip a.instructionsMarkdown
  require (startsWith skillId "skill." && skillId.length ≤ 160) (.valueError "skill_id_invalid")
  require (content ≠ [] ∧ content.length ≤ 40000) (.valueError "skill_instructions_invalid")
  learningBoundary db a.taskId a.expected
  let same (s : UserSkillRevision) : Bool := s.ownerId = a.ownerId && s.skillId = skillId
  let base := PythonText.casefold (strip (a.baseSkillId.getD []))
  let saved : UserSkillRevision :=
    { ownerId := a.ownerId, skillId
      revision := ((db.skills.filter same).map (·.revision)).foldl max 0 + 1
      title := (strip (if a.title = [] then skillId else a.title)).take 160
      instructionsMarkdown := content
      baseSkillId := if base = [] then none else some base
      active := a.active, sourceInstruction := (strip a.sourceInstruction).take 4000
      createdAt := isoUtc now }
  .ok (saved, { db with skills :=
    (db.skills.map fun s => if same s then { s with active := false } else s) ++ [saved] })

end Learning

end HardyAI.Tasks
