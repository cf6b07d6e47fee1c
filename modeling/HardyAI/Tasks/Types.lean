import HardyAI.Foundation.Json
import HardyAI.Foundation.Instant
import HardyAI.Foundation.Table

/-! The rows of the task store. Durations are whole microseconds where the source
adds floats of seconds. -/

open Foundation

namespace HardyAI.Tasks

inductive TaskStatus
  | queued | running | pausedBudget | pausedUser | waitingInput | waitingApproval | completed
  | failed | cancelled
  deriving DecidableEq

/-- `TERMINAL_TASK_STATUSES`. -/
def TaskStatus.terminal : TaskStatus → Bool
  | .completed | .cancelled => true
  | .queued | .running | .pausedBudget | .pausedUser | .waitingInput | .waitingApproval
  | .failed => false

structure AgentTask where
  taskId : Str
  ownerId : Str
  sourceInterface : Str
  sessionId : Option Str
  submissionId : Str
  title : Str
  goal : Str
  status : TaskStatus
  revision : Int
  steeringRevision : Int
  runGeneration : Int
  activeJobId : Option Str
  planMarkdown : Str
  progressSummary : Str
  finalResult : Option Str
  errorCode : Option Str
  waitingPrompt : Option Str
  workspaceRef : Str
  budgetSecondsTotal : Int
  budgetSecondsUsed : Int
  modelDecisionsLimit : Int
  modelDecisionsUsed : Int
  capabilityCallsLimit : Int
  capabilityCallsUsed : Int
  createdAt : Str
  updatedAt : Str
  startedAt : Option Str
  completedAt : Option Str
  cancelledAt : Option Str
  deriving DecidableEq

inductive MessageRole
  | user | assistant | tool
  deriving DecidableEq

/-- A row of `task_messages`, with the submission that its metadata names. -/
structure TaskMessage where
  taskId : Str
  role : MessageRole
  content : Str
  toolName : Option Str := none
  toolCallId : Option Str := none
  toolCalls : Option (List Json) := none
  submissionId : Option Str := none
  deriving DecidableEq

structure BudgetGrant where
  taskId : Str
  submissionId : Str
  addedSeconds : Int
  addedModelDecisions : Int
  addedCapabilityCalls : Int
  createdBy : Str
  createdAt : Str
  deriving DecidableEq

inductive EffectState
  | reserved | committed | noEffect | uncertain | waitingApproval | failed
  deriving DecidableEq

structure EffectReceipt where
  taskId : Str
  logicalOperationId : Str
  receiptId : Str
  providerOperationId : Str
  toolId : Str
  argumentsHash : Str
  state : EffectState
  result : Json
  runId : Option Str
  createdAt : Str
  updatedAt : Str
  deriving DecidableEq

def EffectReceipt.key (r : EffectReceipt) : Str × Str := (r.taskId, r.logicalOperationId)

structure UserPreference where
  preferenceId : Str
  revision : Nat
  ownerId : Str
  scope : Str
  skillId : Option Str
  ruleText : Str
  sourceInstruction : Str
  active : Bool
  createdAt : Str
  deriving DecidableEq

structure UserSkillRevision where
  ownerId : Str
  skillId : Str
  revision : Nat
  title : Str
  instructionsMarkdown : Str
  baseSkillId : Option Str
  active : Bool
  sourceInstruction : Str
  createdAt : Str
  deriving DecidableEq

/-- The tables of the task store that its operations read. -/
structure TaskDb where
  tasks : Table AgentTask.taskId
  messages : List TaskMessage
  grants : List BudgetGrant
  effects : Table EffectReceipt.key
  preferences : List UserPreference
  skills : List UserSkillRevision

def TaskDb.empty : TaskDb := ⟨∅, [], [], ∅, [], []⟩

end HardyAI.Tasks
