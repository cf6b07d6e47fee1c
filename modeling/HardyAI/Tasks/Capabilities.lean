import HardyAI.Tasks.Operations

/-! The bridge from a task to its capabilities: calls with their effect receipts, and the
reconciliation of receipts that wait for an approval. -/

open Foundation Foundation.Json HardyAI.Reviews HardyAI.Skills

namespace HardyAI.Tasks

section Receipts

/-- The fields of a stored result. -/
def EffectReceipt.fields (r : EffectReceipt) : Fields :=
  match r.result with
  | .obj fields => fields
  | .null | .bool _ | .int _ | .float _ | .str _ | .arr _ => []

/-- The states that `reconcile_approval_effects` and `_approval_result` project to a failure. -/
def terminalFailure : ActionProposalState → Bool
  | .rejected | .expired | .canceled | .denied | .failedTerminal => true
  | .pending | .approved | .executing | .executed | .superseded => false

def approvedResult (proposal : ActionProposal) : Fields :=
  [("status", .str "ok"), ("approved_execution", .bool true),
    ("proposal_id", .str proposal.proposalId),
    ("receipt_ref", .str (proposal.actionReceiptRef.getD []))]

end Receipts

section Reconcile

variable [PythonText]

def reconciledFailure (proposal : ActionProposal) : Fields :=
  [("status", .str "policy_denied"),
    ("message", .str "The exact action was not approved or could not be executed."),
    ("proposal_id", .str proposal.proposalId),
    ("proposal_state", .str proposal.state.value),
    ("reason_code", .str (proposal.terminalReasonCode.getD []))]

/-- What reconciliation makes of a proposal: a new state of the receipt with its result. -/
def projection : Option ActionProposal → Option (EffectState × Fields)
  | some proposal =>
    if proposal.state = .executed then some (.committed, approvedResult proposal)
    else if terminalFailure proposal.state then some (.failed, reconciledFailure proposal)
    else none
  | none => none

def reconcileEffect (effect : EffectReceipt) : Process Nat := do
  let proposalId ← .ofExcept (textOr (lookup effect.fields "proposal_id") [])
  if proposalId = [] then pure 0
  else
    let proposal ← getActionProposal proposalId
    match projection proposal with
    | none => pure 0
    | some (state, result) =>
      let _ ← Program.raising
        (ask (.finishEffect effect.taskId effect.logicalOperationId state result))
      pure 1

def reconcileWaiting (effect : EffectReceipt) : Process Nat :=
  if effect.state = .waitingApproval then reconcileEffect effect else pure 0

def reconcileEffects : List EffectReceipt → Process Nat
  | [] => pure 0
  | effect :: effects => do
    let one ← reconcileWaiting effect
    let rest ← reconcileEffects effects
    pure (one + rest)

/-- `reconcile_approval_effects`. -/
def reconcileApprovalEffects (taskId : Str) : Process Nat := do
  let effects ← ask (.listEffects taskId)
  reconcileEffects effects

end Reconcile

section Approval

variable [PythonText]

inductive Approval
  | approvedExecuted (proposal : ActionProposal)
  | rejected (proposal : ActionProposal)
  | waiting (proposal : Option ActionProposal)
  | created (c : CreatedProposal)
  | unavailable

def recipientKeys : List Str :=
  ["attendees", "guests", "invitees", "invitee_emails", "recipients"]

/-- `_conditional_approval_required`. -/
def conditionalApprovalRequired (d : ToolDescriptor) (arguments : Fields) : Bool :=
  match d.approvalRule with
  | .always => true
  | .none | .denied => false
  | .conditional => d.approvalConditions.any fun condition =>
    condition = "external_recipients_present" && recipientKeys.any fun key =>
      match lookup arguments key with
      | some (.arr items) => !items.isEmpty
      | some (.str s) => strip s ≠ []
      | _ => false

def approvalOf (proposal : Option ActionProposal) : Approval :=
  match proposal with
  | some p =>
    if p.state = .executed then .approvedExecuted p
    else if terminalFailure p.state then .rejected p
    else .waiting (some p)
  | none => .waiting none

def priorProposal (proposalId : Str) : Process (Option ActionProposal) :=
  if proposalId = [] then pure none else getActionProposal proposalId

/-- `_approval_result`: any failure to create the proposal makes approval unavailable. -/
def approvalResult (prepared : PreparedToolCall) (existing : EffectReceipt) : Process Approval :=
  if existing.state = .waitingApproval then do
    let proposalId ← .ofExcept (textOr (lookup existing.fields "proposal_id") [])
    let proposal ← priorProposal proposalId
    pure (approvalOf proposal)
  else do
    match ← ask (.createActionProposal prepared) with
    | .ok created => pure (.created created)
    | .error _ => pure .unavailable

def rejectedResult (proposal : ActionProposal) : Fields :=
  [("status", .str "policy_denied"), ("message", .str "The exact action was not approved."),
    ("proposal_id", .str proposal.proposalId)]

def waitingResult (proposalId proposalHash reviewId : Str) : Fields :=
  [("status", .str "waiting_for_approval"),
    ("message", .str "The exact action is waiting for local operator approval."),
    ("proposal_id", .str proposalId), ("proposal_hash", .str proposalHash),
    ("review_id", .str reviewId)]

def unavailableResult : Fields :=
  [("status", .str "policy_denied"),
    ("message", .str "This action requires approval, but approval is unavailable."),
    ("denial_reason", .str "action_approval_unavailable")]

/-- The state and the result that an approval leaves in the receipt. -/
def Approval.receipt : Approval → EffectState × Fields
  | .approvedExecuted p => (.committed, approvedResult p)
  | .rejected p => (.failed, rejectedResult p)
  | .waiting p => (.waitingApproval, waitingResult ((p.map (·.proposalId)).getD [])
      ((p.map (·.proposalHash)).getD []) [])
  | .created c => (.waitingApproval, waitingResult c.proposal.proposalId c.proposal.proposalHash
      c.review.reviewId)
  | .unavailable => (.failed, unavailableResult)

end Approval

section Call

variable [PythonText]

structure CallArgs where
  task : AgentTask
  agentId : Str
  toolId : Str
  contractVersion : Int
  arguments : Fields
  logicalOperationId : Str
  callOrdinal : Int
  expectedSteeringRevision : Int
  runId : Option Str := none

/-- `_LOGICAL_ID`. -/
def isLogicalId : Str → Bool
  | [] => false
  | c :: cs => isAlphanumeric c && cs.length ≤ 159 &&
      cs.all fun x => isAlphanumeric x || (text "_.:-").contains x

def errorResult (code : Str) : Fields := [("status", .str "error"), ("error_code", .str code)]

def interruptedResult (code : Str) : Fields :=
  [("status", .str "interrupted"), ("error_code", .str code)]

/-- The state that the result of an execution leaves in the receipt. -/
def executedState (result : Fields) : Except PyError EffectState := do
  let status ← textOr (lookup result "status") []
  if status = "ok" then
    .ok (if lookup result "committed_effect" = some (.bool false) then .noEffect else .committed)
  else if status = "retryable_error" ∨ status = "uncertain" then .ok .uncertain
  else .ok .failed

def finishCall (a : CallArgs) (logicalId : Str) (state : EffectState) (result : Fields) :
    Process Fields := do
  let _ ← Program.raising (ask (.finishEffect a.task.taskId logicalId state result))
  pure result

def executeEffect (a : CallArgs) (logicalId : Str) (prepared : PreparedToolCall) :
    Process Fields := do
  let result ← Program.raising (ask (.executePreparedTool prepared))
  let state ← .ofExcept (executedState result)
  finishCall a logicalId state result

def approveEffect (a : CallArgs) (logicalId : Str) (prepared : PreparedToolCall)
    (existing : EffectReceipt) : Process Fields := do
  let approval ← approvalResult prepared existing
  finishCall a logicalId approval.receipt.1 approval.receipt.2

/-- The effectful part of a call: its receipt, and then approval or execution. -/
def callEffect (a : CallArgs) (logicalId : Str) (prepared : PreparedToolCall) :
    Process Fields := do
  let existing ← Program.raising (ask (.reserveEffect
    { taskId := a.task.taskId, logicalOperationId := logicalId
      providerOperationId := prepared.envelope.operationId
      toolId := prepared.descriptor.toolId
      argumentsHash := prepared.envelope.argumentsHash, runId := a.runId }))
  if existing.state = .committed ∨ existing.state = .noEffect then
    pure (setField existing.fields "task_idempotent_replay" (.bool true))
  else if conditionalApprovalRequired prepared.descriptor prepared.envelope.arguments then
    approveEffect a logicalId prepared existing
  else executeEffect a logicalId prepared

/-- One capability call is charged before it starts. -/
def chargedCall (a : CallArgs) (logicalId : Str) (prepared : PreparedToolCall) :
    Process Fields := do
  match ← conflict? (.raising (ask (.consumeUsage a.task.taskId a.expectedSteeringRevision 0 0 1)))
  with
  | .error code => pure (interruptedResult (text code))
  | .ok _ =>
    if prepared.descriptor.effect ≠ .read then callEffect a logicalId prepared
    else Program.raising (ask (.executePreparedTool prepared))

def preparedCall (a : CallArgs) (logicalId : Str) (prepared : PreparedToolCall) :
    Process Fields :=
  if prepared.descriptor.approvalRule = .denied then
    pure [("status", .str "policy_denied"),
      ("denial_reason", .str "tool_approval_policy_denied"),
      ("message", .str "This capability is prohibited by policy.")]
  else if prepared.descriptor.effect ≠ .read ∧ logicalId = [] then
    pure [("status", .str "error"), ("error_code", .str "logical_operation_id_required"),
      ("message", .str "Effectful capability calls require a stable logical operation ID.")]
  else chargedCall a logicalId prepared

/-- The request that `call` hands to the executor: a logical identifier stands for the same
call whenever it is retried. -/
def CallArgs.request (a : CallArgs) (logicalId : Str) : PrepareRequest where
  task := a.task
  agentId := a.agentId
  toolId := PythonText.casefold (strip a.toolId)
  contractVersion := a.contractVersion
  arguments := a.arguments
  requestId := text "task:" ++ a.task.taskId ++ text ":" ++
    (if logicalId = [] then text "read:" ++ intText a.callOrdinal else logicalId)
  callOrdinal := if logicalId = [] then max 1 a.callOrdinal else 1

/-- `TaskCapabilityBridge.call`. -/
def call (a : CallArgs) : Process Fields := do
  let logicalId := strip a.logicalOperationId
  if logicalId ≠ [] ∧ isLogicalId logicalId = false then
    pure (errorResult "logical_operation_id_invalid")
  else
    match ← Program.raising (ask (.prepareToolCall (a.request logicalId))) with
    | .inl refusal => pure refusal
    | .inr prepared => preparedCall a logicalId prepared

end Call

end HardyAI.Tasks
