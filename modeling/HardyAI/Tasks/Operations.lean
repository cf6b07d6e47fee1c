import HardyAI.Foundation.Interleaving
import HardyAI.Reviews.Runs
import HardyAI.Reviews.Service
import HardyAI.Tasks.Repository

/-! What the processes around a task ask of its stores and of the world: one request for
each transaction, read or outside call of the source. -/

open Foundation Foundation.Json HardyAI.Jobs HardyAI.Reviews HardyAI.Skills

namespace HardyAI.Tasks

section Requests

abbrev Fields := List (Str × Json)

/-- The task store and the review database, which holds the job ledger. -/
structure Store where
  tasks : TaskDb
  reviews : ReviewDb

def Store.empty : Store := ⟨.empty, .empty⟩

/-- An assistant message of the model, whose `tool_calls` may be missing. -/
structure ModelReply where
  content : Str
  toolCalls : Option (List Json)
  elapsed : Int

def ModelReply.calls (reply : ModelReply) : List Json := reply.toolCalls.getD []

structure PrepareRequest where
  task : AgentTask
  agentId : Str
  toolId : Str
  contractVersion : Int
  arguments : Fields
  requestId : Str
  callOrdinal : Int

/-- A script run that is being served, with the steering revision it was started at. -/
structure BrokerRun where
  task : AgentTask
  agentId : Str
  runId : Str
  steeringRevision : Int

inductive Lookup
  | discover (query : Str)
  | loadSkill (skillId : Str)
  | describe (toolId : Str)

inductive Op
  | claimJobs (workerId : Str) (leaseSeconds : Seconds)
  | readPayload (job : DurableJob)
  | getJob (jobId : Str)
  | completeJob (jobId workerId : Str) (token : Int)
  | acknowledgeCancel (jobId workerId : Str) (token : Int)
  | retryJob (jobId workerId errorCode : Str) (delaySeconds : Seconds) (token : Int)
  | leaseLost
  | leaseCurrent (expiresAt : Str)
  | beginRun (taskId jobId : Str) (generation : Int)
  | getTask (taskId : Str)
  | budgetAvailable (taskId : Str)
  | consumeUsage (taskId : Str) (expected activeSeconds modelDecisions capabilityCalls : Int)
  | setPlan (taskId planMarkdown progressSummary : Str) (expected : Option Int)
  | workerTransition (taskId : Str) (a : TransitionArgs) (expected : Option Int)
  | appendMessage (message : TaskMessage)
  | listEffects (taskId : Str)
  | reserveEffect (a : EffectReservation)
  | finishEffect (taskId logicalOperationId : Str) (state : EffectState) (result : Fields)
  | savePreference (a : PreferenceArgs)
  | saveSkillRevision (a : SkillArgs)
  | expireDue
  | readProposal (proposalId : Str)
  | createActionProposal (prepared : PreparedToolCall)
  | chat (task : AgentTask)
  | lookUp (task : AgentTask) (agentId : Str) (what : Lookup)
  | prepareToolCall (request : PrepareRequest)
  | executePreparedTool (prepared : PreparedToolCall)
  | prepareScript (task : AgentTask) (logicalRunId source : Str) (steeringRevision : Int)
  | openBroker (run : BrokerRun)
  | launchScript (task : AgentTask) (runId : Str)
  | finishScript (runId : Str) (status : Str) (result : Fields)
  | nextRequest (runId : Str)

/-- A script run that has to be run, or the result of one that has ended before. -/
inductive PreparedScript
  | run (runId : Str)
  | replay (result : Fields)

abbrev Op.Reply : Op → Type
  | .claimJobs _ _ => Except PyError (List DurableJob)
  | .readPayload _ => Fields
  | .getJob _ => Option DurableJob
  | .completeJob _ _ _ => Except PyError Bool
  | .acknowledgeCancel _ _ _ => Except PyError Bool
  | .retryJob _ _ _ _ _ => Except PyError Bool
  | .leaseLost => Bool
  | .leaseCurrent _ => Bool
  | .beginRun _ _ _ => Except PyError (Option AgentTask)
  | .getTask _ => Option AgentTask
  | .budgetAvailable _ => Option AgentTask
  | .consumeUsage _ _ _ _ _ => Except PyError AgentTask
  | .setPlan _ _ _ _ => Except PyError AgentTask
  | .workerTransition _ _ _ => Except PyError AgentTask
  | .appendMessage _ => Except PyError Unit
  | .listEffects _ => List EffectReceipt
  | .reserveEffect _ => Except PyError EffectReceipt
  | .finishEffect _ _ _ _ => Except PyError EffectReceipt
  | .savePreference _ => Except PyError UserPreference
  | .saveSkillRevision _ => Except PyError UserSkillRevision
  | .expireDue => Except PyError Unit
  | .readProposal _ => Option ActionProposal
  | .createActionProposal _ => Except PyError CreatedProposal
  | .chat _ => Except PyError ModelReply
  | .lookUp _ _ _ => Except PyError Fields
  | .prepareToolCall _ => Except PyError (Fields ⊕ PreparedToolCall)
  | .executePreparedTool _ => Except PyError Fields
  | .prepareScript _ _ _ _ => Except PyError PreparedScript
  | .openBroker _ => Except PyError Unit
  | .launchScript _ _ => Except PyError Fields
  | .finishScript _ _ _ => Except PyError Fields
  | .nextRequest _ => Option Fields

end Requests

section Effects

/-- What the world contributes to a request: clock, fresh identifiers, the flag that the
heartbeat thread sets, and the replies of services outside the two stores. -/
structure Env where
  now : Instant
  freshId : Str := []
  fresh : Fresh := { now }
  leaseLost : Bool := false
  payload : Fields := []
  chat : Except PyError ModelReply := .error (.runtimeError "unreachable")
  lookUp : Except PyError Fields := .ok []
  prepared : Except PyError (Fields ⊕ PreparedToolCall) := .ok (.inl [])
  executed : Except PyError Fields := .ok []
  script : Except PyError PreparedScript := .error (.runtimeError "unreachable")
  broker : Except PyError Unit := .ok ()
  launched : Except PyError Fields := .ok []
  finished : Except PyError Fields := .ok []
  request : Option Fields := none

variable [PythonText] {α : Type}

def onTasks (t : Transaction TaskDb α) (s : Store) : Except PyError α × Store :=
  (t.reply s.tasks, { s with tasks := t.commit s.tasks })

def onReviews (t : Transaction ReviewDb α) (s : Store) : Except PyError α × Store :=
  (t.reply s.reviews, { s with reviews := t.commit s.reviews })

def onJobs (t : Transaction JobLedger α) (s : Store) : Except PyError α × Store :=
  (t.reply s.reviews.jobs,
    { s with reviews := { s.reviews with jobs := t.commit s.reviews.jobs } })

def agentTaskJob : Str := "agent.task.v1"

/-- The proposal that `_approval_result` asks for, open for an hour. -/
def approvalProposal (prepared : PreparedToolCall) (env : Env) :
    Transaction ReviewDb CreatedProposal := fun db => do
  let expiresAt ← env.now.add (.micros 3600000000)
  Reviews.Service.createActionProposal
    { envelope := prepared.envelope, descriptor := prepared.descriptor
      resourceVersion := prepared.resourceVersion
      approverPrincipal := prepared.envelope.principalSubject, expiresAt
      destinationPurpose := "task_workspace" } env.fresh db

def exec (env : Env) : (op : Op) → Store → op.Reply × Store
  | .claimJobs workerId lease, s => onJobs (claimJobs agentTaskJob workerId 1 lease env.now) s
  | .readPayload _, s => (env.payload, s)
  | .getJob jobId, s => (s.reviews.jobs.find? jobId, s)
  | .completeJob jobId workerId token, s => onJobs (completeJob jobId workerId token env.now) s
  | .acknowledgeCancel jobId workerId token, s =>
      onJobs (acknowledgeCancel jobId workerId token env.now) s
  | .retryJob jobId workerId errorCode delay token, s =>
      onJobs (retryJob jobId workerId errorCode delay (some token) env.now) s
  | .leaseLost, s => (env.leaseLost, s)
  -- texts of one width, which order like the instants they show
  | .leaseCurrent expiresAt, s => (isoUtc env.now < expiresAt, s)
  | .beginRun taskId jobId generation, s => onTasks (beginRun taskId jobId generation env.now) s
  | .getTask taskId, s => (s.tasks.task? taskId, s)
  | .budgetAvailable taskId, s => (s.tasks.task? taskId, s)
  | .consumeUsage taskId expected seconds decisions calls, s =>
      onTasks (consumeUsage taskId expected seconds decisions calls env.now) s
  | .setPlan taskId plan summary expected, s =>
      onTasks (setPlan taskId plan summary expected env.now) s
  | .workerTransition taskId a expected, s =>
      onTasks (workerTransition taskId a expected env.now) s
  | .appendMessage message, s => onTasks (addMessage message) s
  | .listEffects taskId, s => (listEffects s.tasks taskId, s)
  | .reserveEffect a, s =>
      onTasks ((reserveEffect a env.freshId env.now).mapReply Prod.fst) s
  | .finishEffect taskId logicalId state result, s =>
      onTasks (finishEffect taskId logicalId state result env.now) s
  | .savePreference a, s => onTasks (savePreference a env.freshId env.now) s
  | .saveSkillRevision a, s => onTasks (saveSkillRevision a env.now) s
  | .expireDue, s => onReviews ((expireDue (isoUtc env.now)).mapReply fun _ => ()) s
  | .readProposal proposalId, s => (s.reviews.proposal? proposalId, s)
  | .createActionProposal prepared, s => onReviews (approvalProposal prepared env) s
  | .chat _, s => (env.chat, s)
  | .lookUp _ _ _, s => (env.lookUp, s)
  | .prepareToolCall _, s => (env.prepared, s)
  | .executePreparedTool _, s => (env.executed, s)
  | .prepareScript _ _ _ _, s => (env.script, s)
  | .openBroker _, s => (env.broker, s)
  | .launchScript _ _, s => (env.launched, s)
  | .finishScript _ _ _, s => (env.finished, s)
  | .nextRequest _, s => (env.request, s)

end Effects

section Outside

/-- The commands of the task's owner. -/
inductive OwnerCommand
  | addUserMessage (taskId ownerId : Str) (expectedRevision : Int) (submissionId content : Str)
  | pause (taskId ownerId : Str) (expectedRevision : Int)
  | cancel (taskId ownerId : Str) (expectedRevision : Int)
  | continueTask (taskId ownerId : Str) (expectedRevision : Int) (submissionId : Str)
      (addSeconds addModelDecisions addCapabilityCalls : Int)

def OwnerCommand.taskId : OwnerCommand → Str
  | .addUserMessage taskId .. | .pause taskId .. | .cancel taskId .. | .continueTask taskId .. =>
    taskId

/-- The command with whether it commits: a submission that is already known does nothing. -/
def OwnerCommand.run (now : Instant) : OwnerCommand → Transaction TaskDb Bool
  | .addUserMessage taskId ownerId expected submissionId content =>
      (Tasks.addUserMessage taskId ownerId expected submissionId content now).mapReply Prod.snd
  | .pause taskId ownerId expected =>
      (Tasks.pause taskId ownerId expected now).mapReply fun _ => true
  | .cancel taskId ownerId expected =>
      (Tasks.cancel taskId ownerId expected now).mapReply fun _ => true
  | .continueTask taskId ownerId expected submissionId seconds decisions calls =>
      (Tasks.continueTask taskId ownerId expected submissionId seconds decisions calls
        now).mapReply Prod.snd

/-- What happens around the workers: owner commands, the task service and every call of the
review database and its job ledger. -/
inductive Outside
  | owner (c : OwnerCommand) (now : Instant)
  | createTask (request : TaskRequest) (taskId : Str) (now : Instant)
  | setActiveJob (taskId jobId : Str) (generation : Int) (now : Instant)
  | advanceQueuedGeneration (taskId : Str) (expectedGeneration : Int) (now : Instant)
  | setWorkspaceRef (taskId workspaceRef : Str) (now : Instant)
  | reviews (c : Reviews.Call)

variable [PythonText]

/-- The state after an outside act, with whether it is an owner command that commits. -/
def act : Outside → Store → Bool × Store
  | .owner c now, s =>
      ((c.run now).reply s.tasks = .ok true, { s with tasks := (c.run now).commit s.tasks })
  | .createTask request taskId now, s =>
      (false, { s with tasks := (createTask request taskId now).commit s.tasks })
  | .setActiveJob taskId jobId generation now, s =>
      (false, { s with tasks := (setActiveJob taskId jobId generation now).commit s.tasks })
  | .advanceQueuedGeneration taskId generation now, s =>
      (false, { s with tasks := (advanceQueuedGeneration taskId generation now).commit s.tasks })
  | .setWorkspaceRef taskId workspaceRef now, s =>
      (false, { s with tasks := (setWorkspaceRef taskId workspaceRef now).commit s.tasks })
  | .reviews c, s => (false, { s with reviews := Reviews.step s.reviews c })

end Outside

section Programs

/-- A process of the task workspace. -/
abbrev Process (α : Type) := Program Op Op.Reply α

abbrev ask (op : Op) : Process op.Reply := .perform op

/-- `try … except TaskConflictError`, with the text of the conflict. -/
def conflict? {α : Type} (p : Process α) : Process (Except String α) :=
  (p.bind fun a => .pure (.ok a)).handle fun
    | .taskConflictError m => .pure (.error m)
    | e => .raise e

/-- `get_action_proposal`, which first expires what is due. -/
def getActionProposal (proposalId : Str) : Process (Option ActionProposal) := do
  Program.raising (ask .expireDue)
  ask (.readProposal proposalId)

end Programs

end HardyAI.Tasks
