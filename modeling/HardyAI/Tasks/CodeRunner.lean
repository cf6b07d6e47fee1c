import HardyAI.Foundation.Interleaving
import HardyAI.Tasks.ScriptRuns
import HardyAI.Tasks.Types

/-! `TaskCodeRunner.run` as a program over the script runs, the files of the workspaces and the
launcher of containers. -/

open Foundation Foundation.Program

namespace HardyAI.Tasks.CodeRunner

section Requests

/-- What the launcher answers of a container that has ended. -/
structure LaunchResult where
  ok : Bool
  exitCode : Option Int
  timedOut : Bool
  stdout : Str
  stderr : Str

/-- The columns of the task that the end of a run looks at. -/
structure Boundary where
  status : TaskStatus
  steeringRevision : Int

/-- Requests to the file system, to the store and to the launcher. The start of a container and
its end are two requests, with anything in between. -/
inductive Op
  | ensureWorkspace (workspaceRef : Str)
  | createScriptRun (a : CreateScriptArgs)
  | makeDirectories (runId : Str)
  | openSource (runId : Str)
  | writeSource (runId source : Str)
  | protectSource (runId : Str)
  | markScriptRunning (runId : Str)
  | launch (taskId runId workspaceRef : Str)
  | awaitContainer (runId : Str)
  | publishedArtifacts (ownerId taskId : Str)
  | getTask (taskId : Str)
  | finishScriptRun (runId : Str) (r : ScriptResult)

abbrev Op.Answer : Op → Type
  | .createScriptRun _ => ScriptRun × Bool
  | .awaitContainer _ => LaunchResult
  | .publishedArtifacts .. => List Artifact
  | .getTask _ => Option Boundary
  | .finishScriptRun .. => Option ScriptRun
  | .ensureWorkspace _ | .makeDirectories _ | .openSource _ | .writeSource .. | .protectSource _
  | .markScriptRunning _ | .launch .. => Unit

/-- Every request may raise. -/
abbrev Op.Reply (op : Op) : Type := Except PyError op.Answer

end Requests

section Runner

abbrev RunnerProgram := Program Op Op.Reply

def ask (op : Op) : RunnerProgram op.Answer := raising (perform op)

structure Call where
  taskId : Str
  ownerId : Str
  workspaceRef : Str
  logicalRunId : Str
  source : Str
  expectedSteeringRevision : Int
  maxSourceChars : Nat

inductive Answer
  | sourceInvalid
  | replay (row : ScriptRun)
  | finished (status : ScriptStatus) (persisted : Option ScriptRun) (artifacts : List Artifact)

def invalidSource (c : Call) : Bool := strip c.source = [] || c.maxSourceChars < c.source.length

def createArgs (c : Call) : CreateScriptArgs where
  taskId := c.taskId
  logicalRunId := strip c.logicalRunId
  source := c.source
  sourceRef := "pending"
  workspaceRef := c.workspaceRef
  steeringRevision := c.expectedSteeringRevision

/-- The result where anything about the launch has raised. -/
def unavailable (e : PyError) : LaunchResult := ⟨false, none, false, [], text e.className⟩

def launched (c : Call) (runId : Str) : RunnerProgram LaunchResult :=
  Program.handle (do
    ask (.launch c.taskId runId c.workspaceRef)
    ask (.awaitContainer runId)) fun e => .pure (unavailable e)

def scriptStatus (c : Call) (boundary : Option Boundary) (result : LaunchResult) : ScriptStatus :=
  if boundary.all fun b => b.status ≠ .running || b.steeringRevision ≠ c.expectedSteeringRevision then
    .interrupted
  else if result.timedOut then .timedOut
  else if result.exitCode.getD 0 ≠ 0 ∨ result.ok = false then .failed
  else .completed

/-- What `run` does with a run that is to be executed. -/
def execute (c : Call) (runId : Str) : RunnerProgram Answer := do
  ask (.markScriptRunning runId)
  let result ← launched c runId
  let artifacts ← ask (.publishedArtifacts c.ownerId c.taskId)
  let boundary ← ask (.getTask c.taskId)
  let status := scriptStatus c boundary result
  let persisted ← ask (.finishScriptRun runId
    ⟨status, result.exitCode, result.stdout, result.stderr, artifacts⟩)
  return .finished status persisted artifacts

/-- The source file of a new run: created, written and made read-only. -/
def saveSource (c : Call) (runId : Str) : RunnerProgram Unit := do
  ask (.openSource runId)
  ask (.writeSource runId c.source)
  ask (.protectSource runId)

/-- `TaskCodeRunner.run`. -/
def run (c : Call) : RunnerProgram Answer :=
  if invalidSource c then .pure .sourceInvalid
  else do
    ask (.ensureWorkspace c.workspaceRef)
    let (row, created) ← ask (.createScriptRun (createArgs c))
    ask (.makeDirectories row.runId)
    if created then do
      saveSource c row.runId
      execute c row.runId
    else if row.status.recorded then .pure (.replay row)
    else execute c row.runId

end Runner

section System

/-- The store, the `source.py` of each run and the containers that were started, the latest first.
A run belongs to one task and so to one workspace. -/
structure Store where
  runs : ScriptTable
  sources : Str → Option Str
  executions : List (Str × Str)

/-- What a request meets: the exception it raises, how much of a text is written before that, the
identifier of a new run, the time, and what the container and the task turn out to be. -/
structure Env where
  raises : Option PyError
  written : Nat
  freshId : Str
  now : Str
  result : LaunchResult
  artifacts : List Artifact
  boundary : Option Boundary

variable {α : Type}

def respond (env : Env) (a : α) (s s' : Store) : Except PyError α × Store :=
  match env.raises with
  | some e => (.error e, s)
  | none => (.ok a, s')

def respondTo (env : Env) (t : Transaction ScriptTable α) (s : Store) :
    Except PyError α × Store :=
  match env.raises with
  | some e => (.error e, s)
  | none => (t.reply s.runs, { s with runs := t.commit s.runs })

/-- `open("x")`. -/
def openSource (env : Env) (runId : Str) (s : Store) : Except PyError Unit × Store :=
  match s.sources runId with
  | some _ => (.error (.runtimeError "FileExistsError"), s)
  | none => respond env () s { s with sources := Function.update s.sources runId (some []) }

/-- A write that raises, or that the process does not survive, leaves a part of the text. -/
def writeSource (env : Env) (runId source : Str) (s : Store) : Except PyError Unit × Store :=
  match env.raises with
  | some e =>
    (.error e, { s with sources := Function.update s.sources runId (some (source.take env.written)) })
  | none => (.ok (), { s with sources := Function.update s.sources runId (some source) })

/-- The launcher looks for a file `source.py` and starts it, whatever is in it. -/
def launch (env : Env) (runId : Str) (s : Store) : Except PyError Unit × Store :=
  match s.sources runId with
  | none => (.error (.runtimeError "task_runner_workspace_unprepared"), s)
  | some source => respond env () s { s with executions := (runId, source) :: s.executions }

def exec (env : Env) : (op : Op) → Store → op.Reply × Store
  | .ensureWorkspace _, s => respond env () s s
  | .createScriptRun a, s => respondTo env (createScriptRun env.freshId env.now a) s
  | .makeDirectories _, s => respond env () s s
  | .openSource runId, s => openSource env runId s
  | .writeSource runId source, s => writeSource env runId source s
  | .protectSource _, s => respond env () s s
  | .markScriptRunning runId, s =>
    respond env () s { s with runs := markScriptRunning runId env.now s.runs }
  | .launch _ runId _, s => launch env runId s
  | .awaitContainer _, s => respond env env.result s s
  | .publishedArtifacts .., s => respond env env.artifacts s s
  | .getTask _, s => respond env env.boundary s s
  | .finishScriptRun runId r, s => respondTo env (finishScriptRun runId env.now r) s

/-- Calls of any workers over one store. A worker that crashes is never stepped again. -/
def runnerMachine : Machine Store Op Env Empty Unit Call Empty Op.Reply where
  exec := exec
  outside := nofun
  program c := (run c).bind fun _ => .pure ()
  spawns _ := none
  child := nofun

abbrev Event := Machine.Event Env Empty Call
abbrev Entry := Machine.Entry Empty Unit Op.Reply
abbrev System := Machine.System Store Empty Unit Op.Reply

def systemAfter (es : List Event) : System :=
  Trace.run runnerMachine.step (Machine.start ⟨∅, fun _ => none, []⟩) es

end System

end HardyAI.Tasks.CodeRunner
