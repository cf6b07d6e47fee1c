import HardyAI.Tasks.Capabilities

/-! The agent task worker as a program: the claim of a job, the steps of a task, the tools
that the model calls, and the broker that serves a running script. -/

open Foundation Foundation.Json HardyAI.Jobs HardyAI.Skills

namespace HardyAI.Tasks

section Arguments

variable [PythonText]

/-- The decimal digits of an integer literal, with single underscores between them. -/
def literalDigits : Str → Option (List (Fin 10))
  | [] => none
  | [c] => (PythonText.decimal c).map ([·])
  | c :: d :: rest =>
    if d.val = 0x5F then do
      let first ← PythonText.decimal c
      let digits ← literalDigits rest
      some (first :: digits)
    else do
      let first ← PythonText.decimal c
      let digits ← literalDigits (d :: rest)
      some (first :: digits)

def intOfText (s : Str) : Except PyError Int :=
  let (sign, digits) : Int × Str := match strip s with
    | c :: cs => if c.val = 0x2D then (-1, cs) else if c.val = 0x2B then (1, cs) else (1, c :: cs)
    | [] => (1, [])
  match literalDigits digits with
  | some ds =>
    if 4300 < ds.length then .error (.valueError "int_max_str_digits")
    else .ok (sign * (ds.foldl (fun n d => 10 * n + d.val) 0 : Nat))
  | none => .error (.valueError "invalid literal for int()")

/-- `int(value)`. -/
def pyInt : Json → Except PyError Int
  | .null => .error .typeError
  | .bool b => .ok (if b then 1 else 0)
  | .int n => .ok n
  | .float bits =>
    if finite bits then
      let (m, e) := Reviews.Service.floatParts bits
      .ok (if 0 ≤ e then m * 2 ^ e.toNat else m.tdiv (2 ^ (-e).toNat))
    else if bits <<< 12 = 0 then .error .overflowError
    else .error (.valueError "cannot convert float NaN to integer")
  | .str s => intOfText s
  | .arr _ | .obj _ => .error .typeError

/-- `int(value or default)`. -/
def intOr (value : Option Json) (default : Int) : Except PyError Int :=
  match value with
  | some v => if v.truthy then pyInt v else .ok default
  | none => .ok default

def textArgument (arguments : Fields) (key : Str) : Except PyError Str :=
  textOr (lookup arguments key) []

def optionalText (s : Str) : Option Str := if s = [] then none else some s

/-- A call as the model has written it. -/
structure ToolCall where
  name : Str
  arguments : Fields

/-- `(function or {})` of a call, whose `get` fails where it is no dictionary. -/
def callFunction : Json → Except PyError Fields
  | .obj call =>
    match lookup call "function" with
    | some (.obj function) => .ok function
    | some v => if v.truthy then .error .attributeError else .ok []
    | none => .ok []
  | .null | .bool _ | .int _ | .float _ | .str _ | .arr _ => .ok []

/-- `call.get(key)`, where the call is a dictionary. -/
def callValue (call : Json) (key : Str) : Option Json :=
  match call with
  | .obj fields => lookup fields key
  | .null | .bool _ | .int _ | .float _ | .str _ | .arr _ => none

/-- The name that a result of the call shows. -/
def toolName (call : Json) : Except PyError Str := do
  let function ← callFunction call
  textOr (lookup function "name") "unknown_tool"

/-- `str(call.get("id")) if isinstance(call, dict) and call.get("id") else None`. -/
def toolCallId (call : Json) : Except PyError (Option Str) :=
  match callValue call "id" with
  | some v => if v.truthy then (pyStr v).map some else .ok none
  | none => .ok none

def ToolCall.ofJson (call : Json) : Except PyError ToolCall := do
  let function ← callFunction call
  let name ← textArgument function "name"
  .ok ⟨name, match lookup function "arguments" with | some (.obj arguments) => arguments | _ => []⟩

end Arguments

section Tools

variable [PythonText]

/-- How a run of the worker over one job ends. -/
inductive RunStatus
  | cancelled | paused | pausedBudget | completed | waitingApproval | waitingInput
  deriving DecidableEq

structure WorkerConfig where
  workerId : Str
  agentId : Str
  leaseSeconds : Seconds
  maxSteps : Nat
  maxSourceChars : Nat

def preferenceFields (p : UserPreference) : Fields :=
  [("preference_id", .str p.preferenceId), ("revision", .int p.revision),
    ("owner_id", .str p.ownerId), ("scope", .str p.scope),
    ("skill_id", (p.skillId.map Json.str).getD .null), ("rule_text", .str p.ruleText),
    ("source_instruction", .str p.sourceInstruction), ("active", .bool p.active),
    ("created_at", .str p.createdAt)]

def skillFields (s : UserSkillRevision) : Fields :=
  [("skill_id", .str s.skillId), ("revision", .int s.revision), ("owner_id", .str s.ownerId),
    ("title", .str s.title), ("instructions_markdown", .str s.instructionsMarkdown),
    ("base_skill_id", (s.baseSkillId.map Json.str).getD .null), ("active", .bool s.active),
    ("source_instruction", .str s.sourceInstruction), ("created_at", .str s.createdAt)]

/-- The call of a capability, whose conflicts and bad values become its result. -/
def bridgeCall (w : WorkerConfig) (task : AgentTask) (arguments : Fields) (r ordinal : Int) :
    Process Fields :=
  .handle (do
    let toolId ← .ofExcept (textArgument arguments "tool_id")
    let contractVersion ← .ofExcept (intOr (lookup arguments "contract_version") 1)
    let logicalId ← .ofExcept (textArgument arguments "logical_operation_id")
    call
      { task, agentId := w.agentId, toolId, contractVersion
        arguments := match lookup arguments "arguments" with | some (.obj a) => a | _ => []
        logicalOperationId := logicalId, callOrdinal := ordinal, expectedSteeringRevision := r })
    fun e => if e.isValueError then .pure (errorResult (text e.message)) else .raise e

def callCapability (w : WorkerConfig) (task : AgentTask) (arguments : Fields) (r ordinal : Int) :
    Process (Fields × Option RunStatus) := do
  let result ← bridgeCall w task arguments r ordinal
  if lookup result "status" = some (.str "waiting_for_approval") then
    let message ← .ofExcept (textOr (lookup result "message") "Approval is required.")
    let _ ← Program.raising (ask (.workerTransition task.taskId
      { status := .waitingApproval, summary := "Waiting for approval of a protected external effect."
        waitingPrompt := some message } (some r)))
    pure (result, some .waitingApproval)
  else pure (result, none)

def runnerUnavailable (e : PyError) : Fields :=
  [("status", .str "error"), ("error_code", .str "task_runner_unavailable"),
    ("stderr", .str (text e.className)), ("exit_code", .null)]

def scriptResult (runId status : Str) : Fields :=
  let response : Str := if status = "completed" then "ok"
    else if status = "interrupted" then "interrupted" else "error"
  let fields : Fields :=
    [("status", .str response), ("run_id", .str runId), ("script_status", .str status)]
  if status = "interrupted" then fields ++ [(text "error_code", .str "task_steering_changed")]
  else fields

def scriptStatus (interrupted : Bool) (result : Fields) : Except PyError Str :=
  if interrupted then .ok "interrupted"
  else if lookup result "timed_out" = some (.bool true) then .ok "timed_out"
  else do
    let exitCode ← intOr (lookup result "exit_code") 0
    if exitCode ≠ 0 ∨ lookup result "status" ≠ some (.str "ok") then .ok "failed"
    else .ok "completed"

/-- `TaskCodeRunner.run`: the script calls back through a broker of its own. -/
def runPython (w : WorkerConfig) (task : AgentTask) (arguments : Fields) (r : Int) :
    Process Fields := do
  let logicalRunId ← .ofExcept (textArgument arguments "logical_run_id")
  let source ← .ofExcept (textArgument arguments "source")
  if strip source = [] ∨ w.maxSourceChars < source.length then
    pure (errorResult "python_source_invalid")
  else
    match ← Program.raising (ask (.prepareScript task (strip logicalRunId) source r)) with
    | .replay result => pure result
    | .run runId =>
      let result ← Program.handle (do
          Program.raising (ask (.openBroker ⟨task, w.agentId, runId, r⟩))
          Program.raising (ask (.launchScript task runId)))
        fun e => .pure (runnerUnavailable e)
      let boundary ← ask (.getTask task.taskId)
      let interrupted := !boundary.any fun t => t.status = .running && t.steeringRevision = r
      let status ← .ofExcept (scriptStatus interrupted result)
      let finished ← Program.raising (ask (.finishScript runId status result))
      pure (scriptResult runId status ++ finished)

def saveSkill (task : AgentTask) (arguments : Fields) (r : Int) : Process Fields := do
  let skillId ← .ofExcept (textArgument arguments "skill_id")
  let title ← .ofExcept (textArgument arguments "title")
  let instructions ← .ofExcept (textArgument arguments "instructions_markdown")
  let source ← .ofExcept (textArgument arguments "source_instruction")
  let base ← .ofExcept (textArgument arguments "base_skill_id")
  let saved ← Program.raising (ask (.saveSkillRevision
    { ownerId := task.ownerId, skillId, title, instructionsMarkdown := instructions
      sourceInstruction := source, baseSkillId := optionalText base
      taskId := some task.taskId, expected := some r }))
  pure [("status", .str "ok"), ("skill", .obj (skillFields saved))]

def savePreferenceTool (task : AgentTask) (arguments : Fields) (r : Int) : Process Fields := do
  let scope ← .ofExcept (textArgument arguments "scope")
  let rule ← .ofExcept (textArgument arguments "rule_text")
  let source ← .ofExcept (textArgument arguments "source_instruction")
  let skillId ← .ofExcept (textArgument arguments "skill_id")
  let saved ← Program.raising (ask (.savePreference
    { ownerId := task.ownerId, scope, ruleText := rule, sourceInstruction := source
      skillId := optionalText skillId, taskId := some task.taskId, expected := some r }))
  pure [("status", .str "ok"), ("preference", .obj (preferenceFields saved))]

def updatePlan (task : AgentTask) (arguments : Fields) (r : Int) : Process Fields := do
  let plan ← .ofExcept (textArgument arguments "plan_markdown")
  let summary ← .ofExcept (textArgument arguments "progress_summary")
  let updated ← Program.raising (ask (.setPlan task.taskId plan summary (some r)))
  pure [("status", .str "ok"), ("revision", .int updated.revision)]

def askUser (task : AgentTask) (arguments : Fields) (r : Int) :
    Process (Fields × Option RunStatus) := do
  let question ← .ofExcept (textArgument arguments "question")
  let summary ← .ofExcept (textOr (lookup arguments "summary") "Waiting for necessary user input.")
  let _ ← Program.raising (ask (.workerTransition task.taskId
    { status := .waitingInput, summary, waitingPrompt := some (strip question) } (some r)))
  pure ([("status", .str "waiting_for_user"), ("question", .str (strip question))],
    some .waitingInput)

def finishTask (task : AgentTask) (arguments : Fields) (r : Int) :
    Process (Fields × Option RunStatus) := do
  let result ← .ofExcept (textArgument arguments "result")
  let summary ← .ofExcept (textOr (lookup arguments "summary") (strip result))
  let _ ← Program.raising (ask (.workerTransition task.taskId
    { status := .completed, summary := strip summary, finalResult := some (strip result) }
    (some r)))
  pure ([("status", .str "ok")], some .completed)

/-- A tool that never ends the run. -/
def ongoing (p : Process Fields) : Process (Fields × Option RunStatus) := do
  let result ← p
  pure (result, none)

def lookUp (w : WorkerConfig) (task : AgentTask) (what : Lookup) : Process Fields :=
  Program.raising (ask (.lookUp task w.agentId what))

/-- `_execute_tool`. -/
def executeTool (w : WorkerConfig) (task : AgentTask) (c : ToolCall) (r ordinal : Int) :
    Process (Fields × Option RunStatus) :=
  if c.name = "discover_capabilities" then ongoing do
    let query ← .ofExcept (textArgument c.arguments "query")
    lookUp w task (.discover query)
  else if c.name = "load_skill" then ongoing do
    let skillId ← .ofExcept (textArgument c.arguments "skill_id")
    lookUp w task (.loadSkill skillId)
  else if c.name = "describe_capability" then ongoing do
    let toolId ← .ofExcept (textArgument c.arguments "tool_id")
    lookUp w task (.describe toolId)
  else if c.name = "call_capability" then callCapability w task c.arguments r ordinal
  else if c.name = "run_python" then ongoing (runPython w task c.arguments r)
  else if c.name = "update_plan" then ongoing (updatePlan task c.arguments r)
  else if c.name = "ask_user" then askUser task c.arguments r
  else if c.name = "save_preference" then ongoing (savePreferenceTool task c.arguments r)
  else if c.name = "save_skill" then ongoing (saveSkill task c.arguments r)
  else if c.name = "finish_task" then finishTask task c.arguments r
  else ongoing (pure (errorResult "task_tool_unknown"))

end Tools

section Broker

variable [PythonText]

/-- The job of the task is running under a lease that has not expired. -/
def leaseHeld (active : Option DurableJob) : Process Bool :=
  match active with
  | some job =>
    if job.status = .running ∧ job.cancelRequestedAt.getD [] = [] then
      match job.leaseExpiresAt with
      | some expiresAt => ask (.leaseCurrent expiresAt)
      | none => pure false
    else pure false
  | none => pure false

/-- The task while it still runs at the revision of the script run. -/
def currentTask (run : BrokerRun) : Process (Option AgentTask) := do
  let found ← ask (.getTask run.task.taskId)
  pure (found.filter fun t => t.status = .running && t.steeringRevision = run.steeringRevision)

/-- The arguments of a request that is a call, once the lease of the job is checked. -/
def requestArguments (run : BrokerRun) (current : AgentTask) (request : Fields) :
    Process (Option Fields) := do
  let active ← ask (.getJob (current.activeJobId.getD []))
  let held ← leaseHeld active
  if held = false then pure none
  else
    let action ← .ofExcept (textArgument request "action")
    if action = "describe" then
      let toolId ← .ofExcept (textArgument request "tool_id")
      let _ ← Program.raising (ask (.lookUp current run.agentId (.describe toolId)))
      pure none
    else if action ≠ "call" then pure none
    else
      match lookup request "arguments" with
      | some (.obj arguments) => pure (some arguments)
      | _ => pure none

def brokerCall (run : BrokerRun) (current : AgentTask) (ordinal : Int) (request arguments : Fields) :
    Process Unit := do
  let toolId ← .ofExcept (textArgument request "tool_id")
  let contractVersion ← .ofExcept (intOr (lookup request "contract_version") 1)
  let logicalId ← .ofExcept (textArgument request "logical_operation_id")
  let _ ← call
    { task := current, agentId := run.agentId, toolId, contractVersion, arguments
      logicalOperationId := logicalId, callOrdinal := ordinal
      expectedSteeringRevision := run.steeringRevision, runId := some run.runId }
  pure ()

/-- The broker of one run serves a bounded number of requests, and no exception ends it. -/
def broker (run : BrokerRun) : Nat → Int → Process Unit
  | 0, _ => pure ()
  | calls + 1, ordinal => do
    match ← ask (.nextRequest run.runId) with
    | none => pure ()
    | some request =>
      match ← currentTask run with
      | none => broker run calls ordinal
      | some current =>
        match ← (requestArguments run current request).handle fun _ => .pure none with
        | none => broker run calls ordinal
        | some arguments =>
          (brokerCall run current (ordinal + 1) request arguments).handle fun _ => .pure ()
          broker run calls (ordinal + 1)

def brokerMaxCalls : Nat := 200

end Broker

section Steps

variable [PythonText]

def pauseSummary (reason : Str) (effects : List EffectReceipt) : Str :=
  text "Paused at a safe action boundary because " ++
    (reason.map fun c => if c.val = 0x5F then 0x20 else c) ++ text ". " ++
    natText (effects.countP fun e => e.state = .committed || e.state = .noEffect) ++
    text " effect receipt(s) are complete; continuing will reuse this task and its receipts."

def pausedStatus (t : AgentTask) : RunStatus :=
  match t.status with
  | .cancelled => .cancelled
  | .pausedBudget => .pausedBudget
  | .queued | .running | .pausedUser | .waitingInput | .waitingApproval | .completed | .failed =>
    .paused

/-- The pause that follows a conflict: it expects no revision. -/
def pauseAgain (task : AgentTask) (a : TransitionArgs) : Process RunStatus := do
  let refreshed := (← ask (.getTask task.taskId)).getD task
  if refreshed.status = .running then
    match ← conflict? (.raising (ask (.workerTransition task.taskId a none))) with
    | .ok updated => pure (pausedStatus updated)
    | .error _ =>
      let latest ← ask (.getTask task.taskId)
      pure (pausedStatus (latest.getD refreshed))
  else pure (pausedStatus refreshed)

/-- `_pause_budget`. -/
def pauseBudget (task : Option AgentTask) (reason : Str) : Process RunStatus := do
  let effects ← ask (.listEffects ((task.map (·.taskId)).getD []))
  match task with
  | none => .raise (.keyError "task_id")
  | some task =>
    let a : TransitionArgs :=
      { status := .pausedBudget, summary := pauseSummary reason effects, errorCode := some reason }
    match ← conflict? (.raising (ask (.workerTransition task.taskId a
      (some task.steeringRevision)))) with
    | .ok updated => pure (pausedStatus updated)
    | .error _ => pauseAgain task a

/-- `_append_tool_result`. -/
def appendToolResult (taskId name : Str) (callId : Option Str) (result : Fields) :
    Process Unit := do
  let encoded ← .ofExcept (dump true (.obj result))
  Program.raising (ask (.appendMessage
    { taskId, role := .tool, content := encoded.take 64000
      toolName := some name, toolCallId := callId }))

/-- What follows a step: the end of the run, or the next step with the calls seen so far. -/
inductive StepOutcome
  | ended (status : RunStatus)
  | again (identical : List Str)

def interruptCalls (taskId : Str) : List Json → Process Unit
  | [] => pure ()
  | call :: calls => do
    let name ← Program.ofExcept (toolName call)
    let callId ← .ofExcept (toolCallId call)
    appendToolResult taskId name callId
      (setField (interruptedResult "task_steering_changed") "message"
        (.str "The user redirected or paused the task before this action began."))
    interruptCalls taskId calls

/-- A tool call, of which four identical ones are executed. -/
def executeCall (w : WorkerConfig) (task : AgentTask) (c : ToolCall) (seen : Nat) (r ordinal : Int) :
    Process (Fields × Option RunStatus) :=
  if 4 < seen then
    pure (setField (errorResult "repeated_no_progress_call") "message"
      (.str "Revise the approach or ask the user; do not repeat this identical call."), none)
  else do
    match ← conflict? (executeTool w task c r ordinal) with
    | .ok outcome => pure outcome
    | .error code => pure (interruptedResult (text code), none)

/-- The calls of one message, up to the first that ends the run or finds the task steered. -/
def runCalls (w : WorkerConfig) (task : AgentTask) (r step : Int) :
    Int → List Json → List Str → Process StepOutcome
  | _, [], identical => pure (.again identical)
  | index, call :: calls, identical => do
    let c ← .ofExcept (ToolCall.ofJson call)
    let callId ← .ofExcept (textOr (callValue call "id") [])
    let fingerprint ← .ofExcept (dump true (.arr [.str c.name, .obj c.arguments]))
    let identical := fingerprint :: identical
    let outcome ← executeCall w task c (identical.count fingerprint) r (step * 100 + index)
    appendToolResult task.taskId (if c.name = [] then text "unknown_tool" else c.name)
      (optionalText callId) outcome.1
    match outcome.2 with
    | some status => pure (.ended status)
    | none =>
      let refreshed ← ask (.getTask task.taskId)
      if refreshed.any fun t => t.steeringRevision = r && t.status = .running then
        runCalls w task r step (index + 1) calls identical
      else pure (.again identical)

/-- An answer without calls completes the task. -/
def answer (task : AgentTask) (r : Int) (content : Str) (identical : List Str) :
    Process StepOutcome :=
  if strip content = [] then do
    appendToolResult task.taskId "finish_task" none (errorResult "empty_assistant_response")
    pure (.again identical)
  else do
    match ← conflict? (.raising (ask (.workerTransition task.taskId
      { status := .completed, summary := (strip content).take 2000
        finalResult := some (strip content) } (some r)))) with
    | .ok _ => pure (.ended .completed)
    | .error _ => pure (.again identical)

def followReply (w : WorkerConfig) (task : AgentTask) (r step : Int) (identical : List Str)
    (reply : ModelReply) : Process StepOutcome :=
  if reply.calls = [] then answer task r reply.content identical
  else do
    let boundary ← ask (.getTask task.taskId)
    if boundary.any fun t => t.status = .running && t.steeringRevision = r then
      runCalls w task r step 1 reply.calls identical
    else
      interruptCalls task.taskId reply.calls
      pure (.again identical)

def pauseStep (task : Option AgentTask) (reason : Str) : Process StepOutcome := do
  let status ← pauseBudget task reason
  pure (.ended status)

/-- One decision of the model, charged before it is asked. -/
def decide (w : WorkerConfig) (task : AgentTask) (step : Int) (identical : List Str) :
    Process StepOutcome := do
  let r := task.steeringRevision
  match ← conflict? (.raising (ask (.consumeUsage task.taskId r 0 1 0))) with
  | .error code =>
    if code = "task_budget_exhausted" then pauseStep (some task) (text code)
    else pure (.again identical)
  | .ok _ =>
    let reply ← Program.raising (ask (.chat task))
    let _ ← conflict? (.raising (ask (.consumeUsage task.taskId r reply.elapsed 0 0)))
    Program.raising (ask (.appendMessage
      { taskId := task.taskId, role := .assistant, content := reply.content
        toolCalls := reply.toolCalls }))
    followReply w task r step identical reply

def budgetStep (w : WorkerConfig) (step : Int) (identical : List Str) :
    Option AgentTask → Process StepOutcome
  | none => pauseStep none "task_not_found"
  | some current =>
    match exhausted current with
    | some reason => pauseStep (some current) reason
    | none => decide w current step identical

/-- One turn of the loop of `_execute_task`. -/
def runStep (w : WorkerConfig) (taskId jobId : Str) (step : Int) (identical : List Str) :
    Process StepOutcome := do
  match ← ask (.getTask taskId) with
  | none => .raise (.runtimeError "task_not_found")
  | some current =>
    let job ← ask (.getJob jobId)
    if current.status = .cancelled ∨ (job.bind (·.cancelRequestedAt)).getD [] ≠ [] then
      pure (.ended .cancelled)
    else if current.status ≠ .running then pure (.ended .paused)
    else if ← ask .leaseLost then .raise (.runtimeError "task_job_lease_lost")
    else
      let found ← ask (.budgetAvailable taskId)
      budgetStep w step identical found

def runSteps (w : WorkerConfig) (taskId jobId : Str) :
    Nat → Int → List Str → Process RunStatus
  | 0, _, _ => do
    let current ← ask (.getTask taskId)
    pauseBudget current "worker_step_limit_reached"
  | steps + 1, step, identical => do
    match ← runStep w taskId jobId step identical with
    | .ended status => pure status
    | .again identical => runSteps w taskId jobId steps (step + 1) identical

/-- `_execute_task`. -/
def executeTask (w : WorkerConfig) (taskId jobId : Str) : Process RunStatus := do
  let _ ← reconcileApprovalEffects taskId
  runSteps w taskId jobId w.maxSteps 1 []

end Steps

section Run

variable [PythonText]

/-- `max(0, attempt - 1)`. -/
def retryExponent (job : DurableJob) : Nat :=
  (max 0 ((if job.attemptCount = 0 then 1 else job.attemptCount) - 1)).toNat

/-- A failed run is retried later, and its task fails with the last attempt. -/
def failRun (w : WorkerConfig) (taskId : Str) (job : DurableJob) (e : PyError) : Process Unit :=
  if 1024 ≤ retryExponent job then .raise .overflowError
  else do
    let _ ← Program.raising (ask (.retryJob job.jobId w.workerId (text e.className)
      (.micros (min 60000000 (2 ^ retryExponent job * 1000000))) job.leaseFencingToken))
    let persisted ← ask (.getJob job.jobId)
    if persisted.any (·.status = .deadLetter) then
      let _ ← conflict? (.raising (ask (.workerTransition taskId
        { status := .failed, summary := "The task stopped after bounded worker retries."
          errorCode := some (text e.className) } none)))
      pure ()
    else pure ()

/-- The end of a job that was run to its end. -/
def closeJob (w : WorkerConfig) (job : DurableJob) (status : RunStatus) : Process Unit :=
  if status = .cancelled then do
    let _ ← Program.raising (ask (.acknowledgeCancel job.jobId w.workerId job.leaseFencingToken))
    pure ()
  else do
    let _ ← Program.raising (ask (.completeJob job.jobId w.workerId job.leaseFencingToken))
    pure ()

/-- `_run_claimed`. -/
def runClaimed (w : WorkerConfig) (job : DurableJob) : Process Unit := do
  let payload ← ask (.readPayload job)
  let taskId ← .ofExcept (textOr (lookup payload "task_id") job.aggregateId)
  let generation ← .ofExcept (intOr (lookup payload "run_generation") 0)
  match ← Program.raising (ask (.beginRun taskId job.jobId generation)) with
  | none => closeJob w job .paused
  | some _ =>
    let outcome ← Program.handle (do
        let status ← executeTask w taskId job.jobId
        pure (some status))
      fun e => do
        failRun w taskId job e
        pure none
    match outcome with
    | some status => closeJob w job status
    | none => pure ()

def runClaimedJobs (w : WorkerConfig) : List DurableJob → Process Unit
  | [] => pure ()
  | job :: jobs => do
    runClaimed w job
    runClaimedJobs w jobs

/-- `run_once`. -/
def runOnce (w : WorkerConfig) : Process Unit := do
  let jobs ← Program.raising (ask (.claimJobs w.workerId w.leaseSeconds))
  runClaimedJobs w jobs

end Run

end HardyAI.Tasks
