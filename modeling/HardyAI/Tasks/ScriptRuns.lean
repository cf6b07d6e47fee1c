import HardyAI.Foundation.Table
import HardyAI.Skills.OperationIdentity

/-! The script runs of the task store. -/

open Foundation

namespace HardyAI.Tasks

section Rows

inductive ScriptStatus
  | prepared | running | completed | failed | timedOut | interrupted | diverged
  deriving DecidableEq

/-- The result of a run with one of these statuses is replayed. -/
def ScriptStatus.recorded : ScriptStatus → Bool
  | .completed | .failed | .timedOut => true
  | .prepared | .running | .interrupted | .diverged => false

structure Artifact where
  path : Str
  size : Nat
  deriving DecidableEq

/-- A row of `task_script_runs`. -/
structure ScriptRun where
  runId : Str
  taskId : Str
  logicalRunId : Str
  sourceSha256 : Str
  sourceRef : Str
  workspaceRef : Str
  steeringRevision : Int
  status : ScriptStatus
  exitCode : Option Int
  stdoutText : Str
  stderrText : Str
  artifacts : List Artifact
  startedAt : Option Str
  completedAt : Option Str
  createdAt : Str
  updatedAt : Str
  deriving DecidableEq

abbrev ScriptTable := Table ScriptRun.runId

end Rows

section Operations

structure CreateScriptArgs where
  taskId : Str
  logicalRunId : Str
  source : Str
  sourceRef : Str
  workspaceRef : Str
  steeringRevision : Int

/-- The row of a task, a logical run and a source, of which there is at most one. -/
def findScriptRun (t : ScriptTable) (taskId logicalRunId sha : Str) : Option ScriptRun :=
  t.rows.find? fun row =>
    row.taskId = taskId && row.logicalRunId = logicalRunId && row.sourceSha256 = sha

def freshScriptRun (freshId now sha : Str) (a : CreateScriptArgs) : ScriptRun where
  runId := freshId
  taskId := a.taskId
  logicalRunId := a.logicalRunId
  sourceSha256 := sha
  sourceRef := a.sourceRef
  workspaceRef := a.workspaceRef
  steeringRevision := a.steeringRevision
  status := .prepared
  exitCode := none
  stdoutText := []
  stderrText := []
  artifacts := []
  startedAt := none
  completedAt := none
  createdAt := now
  updatedAt := now

/-- `create_script_run`, with a fresh identifier for a new row. -/
def createScriptRun (freshId now : Str) (a : CreateScriptArgs) :
    Transaction ScriptTable (ScriptRun × Bool) := fun t => do
  let sha ← Skills.digest a.source
  match findScriptRun t a.taskId a.logicalRunId sha with
  | some row => .ok ((row, false), t)
  | none =>
    match t.insert? (freshScriptRun freshId now sha a) with
    | none => .error .integrityError
    | some t' => .ok ((freshScriptRun freshId now sha a, true), t')

def startScript (now : Str) : Table.Assignment ScriptRun.runId where
  apply row := { row with
    status := .running, startedAt := some (row.startedAt.getD now), updatedAt := now }

/-- `mark_script_running`. -/
def markScriptRunning (runId now : Str) (t : ScriptTable) : ScriptTable :=
  t.update (fun row => row.runId = runId && (row.status = .prepared || row.status = .interrupted))
    (startScript now)

structure ScriptResult where
  status : ScriptStatus
  exitCode : Option Int
  stdoutText : Str
  stderrText : Str
  artifacts : List Artifact

def endScript (r : ScriptResult) (now : Str) : Table.Assignment ScriptRun.runId where
  apply row := { row with
    status := r.status, exitCode := r.exitCode, stdoutText := r.stdoutText.take 131072
    stderrText := r.stderrText.take 131072, artifacts := r.artifacts.take 100
    completedAt := some now, updatedAt := now }

/-- `finish_script_run`, which asks for no status of the row. -/
def finishScriptRun (runId now : Str) (r : ScriptResult) :
    Transaction ScriptTable (Option ScriptRun) := fun t =>
  if r.status = .prepared ∨ r.status = .running then
    .error (.valueError "task_script_status_invalid")
  else
    let t' := t.update (fun row => row.runId = runId) (endScript r now)
    .ok (t'.find? runId, t')

end Operations

end HardyAI.Tasks
