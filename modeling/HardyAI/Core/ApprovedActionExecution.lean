import HardyAI.Reviews.Runs

/-! The execution of approved actions. Any number of threads run `execute` on
execution jobs: each claims its proposal in one transaction, dispatches it
outside the database and records the outcome in another, and can crash at any
point in between. -/

open Foundation Foundation.Json HardyAI.Jobs HardyAI.Reviews

namespace HardyAI.Core

section Answers

/-- `_local_task_workspace_binding`, or what the identity service resolves. -/
structure Binding where
  active : Bool
  userId : Str
  agentId : Str

structure PreparedEnvelope where
  operationId : Str
  argumentsHash : Str
  authorizationSnapshotRef : Str

inductive Prepared
  | unavailable
  | denied (denialReason : Str)
  | ready (envelope : Option PreparedEnvelope) (currentDescriptorHash descriptorHash
      resourceVersion : Str)

/-- What the identity service, the executor and the two manifest checks answer between the
claim of a proposal and its dispatch. -/
structure Answers where
  binding : Option Binding
  prepared : Prepared
  batchFailure : Option Str
  transferFailure : Option Str
  dispatchable : Bool

def orReason (reason default : Str) : Str := if reason = [] then default else reason

/-- The reason to deny a claimed proposal. Arguments are stored as the text of an object. -/
def reauthorizationFailure (proposal : ActionProposal) (a : Answers) : Option Str :=
  if proposal.destinationArgumentsJson.isNone then some "approval_arguments_unavailable"
  else if !a.binding.any fun b => b.active && b.userId = proposal.requesterUserId &&
      b.agentId = proposal.agentId then some "approval_identity_revoked"
  else match a.prepared with
    | .unavailable => some "approval_executor_unavailable"
    | .denied reason => some (orReason reason "approval_reauthorization_denied")
    | .ready envelope currentDescriptorHash descriptorHash resourceVersion =>
      if !envelope.any (fun e => e.operationId = proposal.operationId &&
          e.argumentsHash = proposal.argumentsHash &&
          e.authorizationSnapshotRef = proposal.authorizationBinding) ||
          currentDescriptorHash ≠ proposal.descriptorHash ||
          descriptorHash ≠ proposal.descriptorHash ||
          resourceVersion ≠ proposal.resourceVersion then some "approval_reauthorization_changed"
      else if a.batchFailure.isSome then a.batchFailure
      else if a.transferFailure.isSome then a.transferFailure
      else if a.dispatchable then none else some "approval_executor_unavailable"

end Answers

section Dispatch

variable [PythonText]

inductive DispatchReply
  | raised
  | value (v : Json)

/-- A result that is not a mapping counts as an empty one. -/
def DispatchReply.fields : DispatchReply → List (Str × Json)
  | .value (.obj fields) => fields
  | _ => []

/-- `str(result.get("status") or "").strip().casefold()`. -/
def dispatchStatus (fields : List (Str × Json)) : Except PyError Str :=
  (textOr (lookup fields "status") []).map fun s => PythonText.casefold (strip s)

def firstReceipt : List (Option Json) → Except PyError (Option Str)
  | [] => .ok none
  | value :: values => do
    let receipt := strip (← textOr value [])
    if receipt = [] then firstReceipt values else .ok (some (receipt.take 240))

def listItems : Option Json → List (Option Json)
  | some (.arr items) => items.map some
  | _ => []

/-- `_receipt_ref`. -/
def receiptRef (fields : List (Str × Json)) : Except PyError (Option Str) :=
  firstReceipt ([lookup fields "receipt_id", lookup fields "job_id"] ++
    listItems (lookup fields "receipt_ids") ++ listItems (lookup fields "job_ids"))

def committedEffect (fields : List (Str × Json)) : Bool :=
  (lookup fields "committed_effect").any truthy

/-- The dispatch returned the status `retryable_error` without a committed effect. -/
def DispatchReply.noEffect : DispatchReply → Bool
  | .raised => false
  | .value v => dispatchStatus (DispatchReply.value v).fields = .ok (text "retryable_error") &&
      !committedEffect (DispatchReply.value v).fields

/-- The write that `execute` makes after a dispatch. -/
inductive FollowUp
  | finish (outcome : ActionProposalState) (reasonCode : Str) (receiptRef : Option Str)
  | retry

def followUp : DispatchReply → Except PyError FollowUp
  | .raised => .ok (.finish .failedTerminal "approval_dispatch_state_uncertain" none)
  | .value v => do
    let fields := (DispatchReply.value v).fields
    let status ← dispatchStatus fields
    if status = "policy_denied" ∨ status = "denied" then
      let reason ← textOr (lookup fields "denial_reason") "approval_dispatch_denied"
      .ok (.finish .denied ((orReason reason "approval_execution_denied").take 120) none)
    else if status = "retryable_error" ∧ committedEffect fields = false then .ok .retry
    else
      let receipt ← receiptRef fields
      if (status ≠ "ok" ∧ status ≠ "queued") ∨ receipt = none then
        .ok (.finish .failedTerminal "approval_dispatch_receipt_missing" none)
      else .ok (.finish .executed "approval_execution_committed" receipt)

end Dispatch

section Execute

variable [PythonText]

/-- The columns of a claimed job that `execute` reads. -/
structure ExecutionJob where
  jobId : Str
  leaseOwner : Option Str
  leaseFencingToken : Int
  payload : Json

structure Claim where
  jobId : Str
  workerId : Str
  fencingToken : Int

structure Outcome where
  status : Str
  reasonCode : Str := []
  receiptRef : Str := []

inductive Phase
  /-- The proposal has been read as approved. -/
  | approved (proposalId : Str) (claim : Claim)
  /-- `begin_action_execution` has returned the proposal. -/
  | begun (claim : Claim) (proposal : ActionProposal)
  | denying (claim : Claim) (proposal : ActionProposal) (reasonCode : Str)
  | dispatching (claim : Claim) (proposal : ActionProposal)
  | returned (claim : Claim) (proposal : ActionProposal) (reply : DispatchReply)
  | ended (outcome : Except PyError Outcome)
  | crashed

def jobPayloadKeys : List Str :=
  ["proposal_id", "review_id", "operation_id", "authorization_binding", "batch_manifest_hash",
    "transfer_binding_hash"]

/-- Each value has the expected text; the first that differs ends the comparison. -/
def textsMatch : List (Option Json × Str) → Except PyError Bool
  | [] => .ok true
  | (value, expected) :: rest => do
    let observed ← textOr value []
    if observed = expected then textsMatch rest else .ok false

/-- `_job_matches_proposal`. -/
def jobMatchesProposal (payload : Json) (p : ActionProposal) : Except PyError Bool :=
  match payload with
  | .obj fields =>
    if (fields.map Prod.fst).all jobPayloadKeys.contains &&
        jobPayloadKeys.all (fields.map Prod.fst).contains then do
      let same ← textsMatch [(lookup fields "proposal_id", p.proposalId),
        (lookup fields "review_id", p.reviewId), (lookup fields "operation_id", p.operationId),
        (lookup fields "authorization_binding", p.authorizationBinding)]
      .ok (same && lookup fields "batch_manifest_hash" = some (Json.ofText? p.batchManifestHash) &&
        lookup fields "transfer_binding_hash" = some (Json.ofText? p.transferBindingHash))
    else .ok false
  | _ => .ok false

def payloadProposalId : Json → Except PyError Str
  | .obj fields => (textOr (lookup fields "proposal_id") []).map strip
  | _ => .ok []

/-- `execute` up to the claim, on the row that `get_action_proposal` reads. -/
def load (db : ReviewDb) (job : ExecutionJob) : Except PyError Phase := do
  let proposalId ← payloadProposalId job.payload
  match db.proposal? proposalId with
  | none => .ok (.ended (.ok ⟨"denied", "approval_execution_binding_mismatch", []⟩))
  | some proposal =>
    let matched ← jobMatchesProposal job.payload proposal
    if !matched then .ok (.ended (.ok ⟨"denied", "approval_execution_binding_mismatch", []⟩))
    else match proposal.state with
      | .executed =>
        .ok (.ended (.ok ⟨"already_executed", [], proposal.actionReceiptRef.getD []⟩))
      | .executing =>
        .ok (.ended (.ok ⟨"reconciliation_required", "effect_state_uncertain", []⟩))
      | .approved =>
        let jobId := strip job.jobId
        let workerId := strip (job.leaseOwner.getD [])
        if jobId = [] ∨ workerId = [] ∨ job.leaseFencingToken < 1 then
          .ok (.ended (.ok ⟨"denied", "approval_execution_lease_missing", []⟩))
        else .ok (.approved proposalId ⟨jobId, workerId, job.leaseFencingToken⟩)
      | state => .ok (.ended (.ok ⟨"denied", text "approval_state_" ++ state.value, []⟩))

/-- `KeyError` or `ValueError`. -/
def claimDenied : PyError → Bool
  | .keyError _ | .valueError _ | .unicodeEncodeError | .taskConflictError _
  | .toolContractError _ => true
  | .permissionError _ | .runtimeError _ | .lookupError _ | .typeError | .attributeError
  | .overflowError | .integrityError | .operationalError | .gmailHistoryExpired => false

def afterBegin (claim : Claim) : Except PyError ActionProposal → Phase
  | .ok proposal => .begun claim proposal
  | .error e =>
    if claimDenied e then .ended (.ok ⟨"denied", "approval_execution_claim_denied", []⟩)
    else .ended (.error e)

/-- The end of `execute` once its last write has returned. -/
def afterFinish (outcome : ActionProposalState) (reasonCode : Str) :
    Except PyError ActionProposal → Phase
  | .ok proposal =>
    match outcome with
    | .executed => .ended (.ok ⟨"executed", [], proposal.actionReceiptRef.getD "None"⟩)
    | .denied => .ended (.ok ⟨"denied", reasonCode, []⟩)
    | _ => .ended (.ok ⟨"failed_terminal", reasonCode, []⟩)
  | .error e => .ended (.error e)

def afterRetry : Except PyError ActionProposal → Phase
  | .ok _ => .ended (.ok ⟨"retryable", "approval_dispatch_retryable_no_effect", []⟩)
  | .error e => .ended (.error e)

end Execute

section System

variable [PythonText]

inductive Entry
  | dispatched (proposalId : Str)
  | replied (proposalId : Str) (reply : DispatchReply)

/-- The database, the threads of all workers and the record of what was dispatched. -/
structure System where
  db : ReviewDb
  threads : List Phase
  log : List Entry

def System.initial : System := ⟨.empty, [], []⟩

/-- Only `execute` gives a claimed proposal back. -/
def reopens : Reviews.Call → Bool
  | .retryActionExecutionAfterNoEffect .. => true
  | _ => false

/-- A transaction of anyone else, or the next action of a thread. -/
inductive Event
  | call (c : Subtype fun c : Reviews.Call => reopens c = false)
  | execute (job : ExecutionJob)
  | begin (i : Nat) (observed : Str)
  /-- Where `none` is answered, a collaborator has raised. -/
  | answer (i : Nat) (answers : Option Answers)
  | reply (i : Nat) (reply : DispatchReply)
  | finish (i : Nat) (fresh : Fresh)
  | crash (i : Nat)

def System.move (s : System) (i : Nat) (phase : Phase) : System :=
  { s with threads := s.threads.set i phase }

def System.begin (s : System) (i : Nat) (proposalId : Str) (claim : Claim) (observed : Str) :
    System :=
  let begin := beginActionExecution proposalId claim.jobId claim.workerId claim.fencingToken
    observed
  { s.move i (afterBegin claim (begin.reply s.db)) with db := begin.commit s.db }

def System.answer (s : System) (i : Nat) (claim : Claim) (proposal : ActionProposal) :
    Option Answers → System
  | none => s.move i (.ended (.error (.runtimeError "reauthorization failed")))
  | some answers =>
    match reauthorizationFailure proposal answers with
    | some reason => s.move i (.denying claim proposal reason)
    | none =>
      { s.move i (.dispatching claim proposal) with
        log := s.log ++ [.dispatched proposal.proposalId] }

def System.finish (s : System) (i : Nat) (claim : Claim) (proposal : ActionProposal)
    (outcome : ActionProposalState) (reasonCode : Str) (receiptRef : Option Str)
    (fresh : Fresh) : System :=
  let finish := finishActionExecution proposal.proposalId claim.jobId claim.workerId
    claim.fencingToken outcome reasonCode receiptRef fresh
  { s.move i (afterFinish outcome reasonCode (finish.reply s.db)) with db := finish.commit s.db }

def System.retry (s : System) (i : Nat) (claim : Claim) (proposal : ActionProposal)
    (now : Instant) : System :=
  let retry := retryActionExecutionAfterNoEffect proposal.proposalId claim.jobId claim.workerId
    claim.fencingToken "no_effect" now
  { s.move i (afterRetry (retry.reply s.db)) with db := retry.commit s.db }

def System.followUp (s : System) (i : Nat) (claim : Claim) (proposal : ActionProposal)
    (reply : DispatchReply) (fresh : Fresh) : System :=
  match Core.followUp reply with
  | .error e => s.move i (.ended (.error e))
  | .ok (.finish outcome reason receipt) => s.finish i claim proposal outcome reason receipt fresh
  | .ok .retry => s.retry i claim proposal fresh.now

/-- An event that a thread is not ready for does nothing. -/
def System.step (s : System) : Event → System
  | .call c => { s with db := Reviews.step s.db c.1 }
  | .execute job =>
    match load s.db job with
    | .ok phase => { s with threads := s.threads ++ [phase] }
    | .error e => { s with threads := s.threads ++ [.ended (.error e)] }
  | .begin i observed =>
    match s.threads[i]? with
    | some (.approved proposalId claim) => s.begin i proposalId claim observed
    | _ => s
  | .answer i answers =>
    match s.threads[i]? with
    | some (.begun claim proposal) => s.answer i claim proposal answers
    | _ => s
  | .reply i reply =>
    match s.threads[i]? with
    | some (.dispatching claim proposal) =>
      { s.move i (.returned claim proposal reply) with
        log := s.log ++ [.replied proposal.proposalId reply] }
    | _ => s
  | .finish i fresh =>
    match s.threads[i]? with
    | some (.denying claim proposal reason) =>
      s.finish i claim proposal .denied (reason.take 120) none fresh
    | some (.returned claim proposal reply) => s.followUp i claim proposal reply fresh
    | _ => s
  | .crash i => s.move i .crashed

def systemAfter (es : List Event) : System := Trace.run System.step .initial es

/-- The calls of `dispatch(prepared)` for a proposal. -/
def System.dispatches (s : System) (proposalId : Str) : Nat :=
  s.log.countP fun
    | .dispatched p => p = proposalId
    | .replied .. => false

/-- The dispatches of a proposal that returned `retryable_error` without a committed effect. -/
def System.noEffects (s : System) (proposalId : Str) : Nat :=
  s.log.countP fun
    | .dispatched _ => false
    | .replied p reply => p = proposalId && reply.noEffect

end System

end HardyAI.Core
