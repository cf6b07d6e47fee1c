import HardyAI.Reviews.Types

/-! The operations of the human review repository. Each is one transaction over
the review tables and the job ledger; the sweep that some of them run first is the
transaction `expireDue`. -/

open Foundation Foundation.Json HardyAI.Jobs

namespace HardyAI.Reviews

section Statements

namespace ReviewDb

def proposal? (db : ReviewDb) (proposalId : Str) : Option ActionProposal :=
  db.proposals.find? proposalId

def item? (db : ReviewDb) (reviewId : Str) : Option ReviewItem := db.items.find? reviewId

/-- `SELECT … FROM action_proposals WHERE review_id=?`. -/
def proposalForReview? (db : ReviewDb) (reviewId : Str) : Option ActionProposal :=
  db.proposals.rows.find? fun p => p.reviewId = reviewId

def decisionForKey? (db : ReviewDb) (idempotencyKey : Str) : Option ReviewDecision :=
  db.decisions.rows.find? fun d => d.idempotencyKey = idempotencyKey

def updateProposal (db : ReviewDb) (proposalId : Str) (g : ActionProposal → Bool)
    (f : ProposalAssignment) : Bool × ReviewDb :=
  let updated := db.proposals.updateKey proposalId g f.toAssignment
  (updated.1, { db with proposals := updated.2 })

def updateItem (db : ReviewDb) (reviewId : Str) (g : ReviewItem → Bool)
    (f : Table.Assignment ReviewItem.reviewId) : Bool × ReviewDb :=
  let updated := db.items.updateKey reviewId g f
  (updated.1, { db with items := updated.2 })

def insertItem (db : ReviewDb) (item : ReviewItem) : Except PyError ReviewDb :=
  match db.items.insertApart? (fun r => r.reviewKind = item.reviewKind ∧
    r.subjectType = item.subjectType ∧ r.subjectId = item.subjectId ∧
    r.subjectVersion = item.subjectVersion ∧ r.itemHash = item.itemHash) item with
  | some items => .ok { db with items }
  | none => .error .integrityError

def insertDecision (db : ReviewDb) (decision : ReviewDecision) : Except PyError ReviewDb :=
  match db.decisions.insertApart? (fun r => r.idempotencyKey = decision.idempotencyKey)
    decision with
  | some decisions => .ok { db with decisions }
  | none => .error .integrityError

/-- The insert of a proposal, whose integrity errors the source reports as a conflict. -/
def insertProposal (db : ReviewDb) (proposal : ActionProposal) : Except PyError ReviewDb :=
  match db.proposals.insertApart? (fun r => r.reviewId = proposal.reviewId ∨
    r.idempotencyKey = proposal.idempotencyKey ∨ r.operationId = proposal.operationId) proposal with
  | some proposals =>
    if proposal.callOrdinal < 1 ∨ proposal.contractVersion < 1 then
      .error (.valueError "action_proposal_idempotency_conflict")
    else .ok { db with proposals }
  | none => .error (.valueError "action_proposal_idempotency_conflict")

end ReviewDb

/-- `COALESCE` cancellation of a waiting job. -/
def cancelWaiting (observed : Str) : JobAssignment where
  apply r := { r with
    status := .cancelled, cancelRequestedAt := some (r.cancelRequestedAt.getD observed)
    cancelledAt := some (r.cancelledAt.getD observed), leaseOwner := none
    leaseExpiresAt := none, updatedAt := observed }

def moveItem (state : ReviewState) (observed : Str) : Table.Assignment ReviewItem.reviewId where
  apply r := { r with state, updatedAt := observed }

/-- A terminal state: the arguments are erased and the time is recorded. -/
def closeProposal (state : ActionProposalState) (reason observed : Str) : ProposalAssignment where
  apply r := { r with
    state, destinationArgumentsJson := none, terminalReasonCode := some reason
    terminalAt := some observed, updatedAt := observed }

end Statements

section Expiry

def dueIn (state : ActionProposalState) (observed : Str) (p : ActionProposal) : Bool :=
  p.state = state && p.expiresAt ≤ observed

def expireDue (observed : Str) : Transaction ReviewDb Nat := fun db =>
  let pending := db.proposals.rows.filter (dueIn .pending observed)
  let db := { db with
    proposals := db.proposals.update (dueIn .pending observed)
      (closeProposal .expired "approval_expired" observed).toAssignment
    jobs := db.jobs.update (fun j => pending.any (·.proposalId = j.aggregateId) &&
      j.jobType = reviewNotificationDiscordJob && j.waiting) (cancelWaiting observed) }
  let approved := db.proposals.rows.filter (dueIn .approved observed)
  let jobIds := (approved.filterMap (·.executionJobId)).filter (· ≠ [])
  let db := { db with
    proposals := db.proposals.update (dueIn .approved observed)
      (closeProposal .expired "approval_expired" observed).toAssignment
    jobs := db.jobs.update (fun j => jobIds.contains j.jobId && j.waiting)
      (cancelWaiting observed) }
  let dueItem (r : ReviewItem) : Bool := r.state = .pending && r.expiresAt.any (· ≤ observed)
  .ok (pending.length + approved.length + db.items.count dueItem,
    { db with items := db.items.update dueItem (moveItem .expired observed) })

end Expiry

variable [PythonText]

section Create

/-- The identifiers that one call generates and the times that its clock shows. -/
structure Fresh where
  proposalId : Str := []
  reviewId : Str := []
  decisionId : Str := []
  jobId : Str := []
  now : Instant
  enqueuedAt : Instant := now

def ActionApprovalProposalRequest.item (request : ActionApprovalProposalRequest)
    (proposalId reviewId observed : Str) : ReviewItem where
  reviewId := reviewId
  reviewKind := .downstreamAction
  subjectType := "action_proposal"
  subjectId := proposalId
  subjectVersion := request.resourceVersion
  itemHash := request.proposalHash
  sourceRef := none
  sensitivity := request.sensitivity
  confidence := none
  validatorSummaryJson := "[]"
  evidenceRefsJson := "[]"
  targetOperation := some request.toolId
  authorizationBinding := some request.authorizationBinding
  state := .pending
  expiresAt := some request.expiresAt
  supersededByReviewId := none
  createdAt := observed
  updatedAt := observed

def dumpOptional : Option (List (Str × Json)) → Except PyError (Option Str)
  | none => .ok none
  | some fields => (dump true (.obj fields)).map some

/-- `_proposal_insert_values`. -/
def ActionApprovalProposalRequest.row (request : ActionApprovalProposalRequest)
    (proposalId reviewId observed : Str) : Except PyError ActionProposal := do
  let arguments ← dump true (.obj request.destinationArguments)
  let batchManifest ← dumpOptional request.batchManifest
  let transferManifest ← dumpOptional request.transferManifest
  .ok
    { toProposalBinding := request.toProposalBinding
      proposalId, reviewId, destinationArgumentsJson := some arguments
      batchManifestJson := batchManifest, transferManifestJson := transferManifest
      state := .pending
      notificationGuildId := none, notificationChannelId := none, notificationMessageId := none
      decisionId := none, decidedByPrincipal := none, decisionGuildId := none
      decisionChannelId := none, decisionMessageId := none, outcomeGuildId := none
      outcomeChannelId := none, outcomeMessageId := none, executionJobId := none
      executionFencingToken := none, actionReceiptRef := none, terminalReasonCode := none
      createdAt := observed, updatedAt := observed, terminalAt := none }

def Json.ofText? : Option Str → Json
  | none => .null
  | some s => .str s

def notificationJob (request : ActionApprovalProposalRequest) (proposalId reviewId jobId : Str) :
    EnqueueArgs where
  jobId := jobId
  jobType := reviewNotificationDiscordJob
  aggregateId := proposalId
  idempotencyKey := text "review-notification-discord:v1:" ++ proposalId ++ text ":" ++ reviewId ++
    text ":" ++ request.destinationPurpose
  payload :=
    [("proposal_id", .str proposalId), ("review_id", .str reviewId),
      ("operation_id", .str request.operationId),
      ("authorization_binding", .str request.authorizationBinding),
      ("batch_manifest_hash", Json.ofText? request.batchManifestHash),
      ("transfer_binding_hash", Json.ofText? request.transferBindingHash),
      ("destination_purpose", .str request.destinationPurpose)]
  maxAttempts := 5

/-- `enqueue_job` with the cursor of the surrounding transaction. -/
def ReviewDb.enqueue (db : ReviewDb) (a : EnqueueArgs) (now : Instant) :
    Except PyError (DurableJob × ReviewDb) := do
  let (job, jobs) ← enqueueJob a now db.jobs
  .ok (job, { db with jobs })

structure CreatedProposal where
  proposal : ActionProposal
  review : ReviewItem
  notificationJob : Option DurableJob

/-- The row of a first request with its pending review item. -/
def ReviewDb.insertRequest (db : ReviewDb) (request : ActionApprovalProposalRequest)
    (fresh : Fresh) : Except PyError (ActionProposal × ReviewDb) := do
  let observed := isoUtc fresh.now
  let db ← db.insertItem (request.item fresh.proposalId fresh.reviewId observed)
  let row ← request.row fresh.proposalId fresh.reviewId observed
  let db ← db.insertProposal row
  .ok (row, db)

def ReviewDb.rowOfRequest (db : ReviewDb) (request : ActionApprovalProposalRequest)
    (fresh : Fresh) : Except PyError (ActionProposal × ReviewDb) :=
  match db.proposals.rows.find? fun p => p.idempotencyKey = request.idempotencyKey with
  | none => db.insertRequest request fresh
  | some row => do
    require (row.proposalHash = request.proposalHash)
      (.valueError "action_proposal_idempotency_conflict")
    .ok (row, db)

def createActionProposal (request : ActionApprovalProposalRequest) (fresh : Fresh) :
    Transaction ReviewDb CreatedProposal := fun db => do
  let operationRow := db.proposals.rows.find? fun p => p.operationId = request.operationId
  require (operationRow.all (·.idempotencyKey = request.idempotencyKey))
    (.valueError "action_proposal_operation_conflict")
  let (proposal, db) ← db.rowOfRequest request fresh
  match db.item? proposal.reviewId with
  | none => .error (.valueError "action_proposal_review_conflict")
  | some review => do
    require (review.itemHash = request.proposalHash)
      (.valueError "action_proposal_review_conflict")
    if request.destinationPurpose = "human_reviews" then
      let (job, db) ← db.enqueue
        (notificationJob request proposal.proposalId proposal.reviewId fresh.jobId) fresh.enqueuedAt
      .ok (⟨proposal, review, some job⟩, db)
    else .ok (⟨proposal, review, none⟩, db)

/-- A row of a table that the transaction has just written. -/
def found {α : Type} (row : Option α) (message : String) : Except PyError α :=
  match row with
  | some r => .ok r
  | none => .error (.runtimeError message)

/-- A row that the caller names. -/
def named {α : Type} (row : Option α) : Except PyError α :=
  match row with
  | some r => .ok r
  | none => .error (.keyError "no such row")

/-- `create`: a second request for the same item returns the first one's row. -/
def create (request : ReviewRequest) (fresh : Fresh) : Transaction ReviewDb ReviewItem :=
  fun db => do
  let observed := isoUtc fresh.now
  let validatorSummary ← dump true (.arr request.validatorSummary)
  let evidenceRefs ← dump true (.arr (request.evidenceRefs.map .str))
  let item : ReviewItem :=
    { reviewId := fresh.reviewId, reviewKind := request.reviewKind
      subjectType := request.subjectType, subjectId := request.subjectId
      subjectVersion := request.subjectVersion, itemHash := request.itemHash
      sourceRef := request.sourceRef, sensitivity := request.sensitivity
      confidence := request.confidence, validatorSummaryJson := validatorSummary
      evidenceRefsJson := evidenceRefs, targetOperation := request.targetOperation
      authorizationBinding := request.authorizationBinding, state := .pending
      expiresAt := request.expiresAt, supersededByReviewId := none
      createdAt := observed, updatedAt := observed }
  let same (r : ReviewItem) : Bool := r.reviewKind = item.reviewKind ∧
    r.subjectType = item.subjectType ∧ r.subjectId = item.subjectId ∧
    r.subjectVersion = item.subjectVersion ∧ r.itemHash = item.itemHash
  if (db.item? item.reviewId).isSome then .error .integrityError
  else
    let db ← if db.items.rows.any same then Except.ok db else db.insertItem item
    let row ← found (db.items.rows.find? same) "review creation did not produce a row"
    .ok (row, db)

end Create

section Notification

def setNotification (guildId channelId messageId observed : Str) : ProposalAssignment where
  apply r := { r with
    notificationGuildId := some guildId, notificationChannelId := some channelId
    notificationMessageId := some messageId, updatedAt := observed }

def setOutcome (guildId channelId messageId observed : Str) : ProposalAssignment where
  apply r := { r with
    outcomeGuildId := some guildId, outcomeChannelId := some channelId
    outcomeMessageId := some messageId, updatedAt := observed }

def markActionNotificationDelivered (proposalId destinationPurpose guildId channelId
    messageId : Str) (now : Instant) : Transaction ReviewDb ActionProposal := fun db => do
  let row ← named (db.proposal? proposalId)
  require (row.destinationPurpose = destinationPurpose)
    (.valueError "action_notification_destination_mismatch")
  if row.notificationGuildId.isSome ∨ row.notificationChannelId.isSome ∨
      row.notificationMessageId.isSome then
    require (row.notificationGuildId.getD [] = guildId ∧
      row.notificationChannelId.getD [] = channelId ∧
      row.notificationMessageId.getD [] = messageId)
      (.valueError "action_notification_delivery_conflict")
    .ok (row, db)
  else
    require (row.state = .pending) (.valueError "action_notification_not_pending")
    let (changed, db) := db.updateProposal proposalId
      (fun p => p.state = .pending && p.notificationMessageId.isNone)
      (setNotification guildId channelId messageId (isoUtc now))
    require changed (.valueError "action_notification_state_changed")
    let updated ← found (db.proposal? proposalId) "action notification binding was lost"
    .ok (updated, db)

def markActionOutcomeDelivered (proposalId destinationPurpose guildId channelId
    messageId : Str) (now : Instant) : Transaction ReviewDb ActionProposal := fun db => do
  let row ← named (db.proposal? proposalId)
  if row.outcomeMessageId.isSome then
    require (row.outcomeGuildId.getD [] = guildId ∧ row.outcomeChannelId.getD [] = channelId ∧
      row.outcomeMessageId.getD [] = messageId) (.valueError "action_outcome_delivery_conflict")
    .ok (row, db)
  else
    require (row.state = .executed ∨ row.state = .denied ∨ row.state = .failedTerminal)
      (.valueError "action_outcome_not_terminal")
    require (row.destinationPurpose = destinationPurpose)
      (.valueError "action_outcome_destination_mismatch")
    let (changed, db) := db.updateProposal proposalId (fun p => p.outcomeMessageId.isNone)
      (setOutcome guildId channelId messageId (isoUtc now))
    require changed (.valueError "action_outcome_delivery_race")
    let updated ← found (db.proposal? proposalId) "action outcome delivery binding was lost"
    .ok (updated, db)

end Notification

section Decide

structure DecisionRequest where
  proposalId : Str
  reviewId : Str
  boundProposalHash : Str
  decision : ReviewDecisionKind
  actorPrincipal : Str
  destinationPurpose : Str
  guildId : Str
  channelId : Str
  messageId : Str
  reason : Str
  idempotencyKey : Str

structure DecidedProposal where
  decision : ReviewDecision
  proposal : ActionProposal
  executionJob : Option DurableJob

def executionJob (p : ActionProposal) (jobId : Str) : EnqueueArgs where
  jobId := jobId
  jobType := reviewActionExecutionJob
  aggregateId := p.proposalId
  idempotencyKey := text "review-action-execution:v1:" ++ p.proposalId ++ text ":" ++ p.operationId
  payload :=
    [("proposal_id", .str p.proposalId), ("review_id", .str p.reviewId),
      ("operation_id", .str p.operationId), ("authorization_binding", .str p.authorizationBinding),
      ("batch_manifest_hash", Json.ofText? p.batchManifestHash),
      ("transfer_binding_hash", Json.ofText? p.transferBindingHash)]
  maxAttempts := 3

/-- The columns that a decision sets on its proposal. -/
def recordDecision (d : DecisionRequest) (decisionId : Str) (jobId : Option Str)
    (observed : Str) : ProposalAssignment where
  apply r := { r with
    state := if d.decision = .approve then .approved else .rejected
    decisionId := some decisionId, decidedByPrincipal := some d.actorPrincipal
    decisionGuildId := some d.guildId, decisionChannelId := some d.channelId
    decisionMessageId := some d.messageId, executionJobId := jobId
    destinationArgumentsJson := if d.decision = .approve then r.destinationArgumentsJson else none
    terminalReasonCode := if d.decision = .approve then none else some "human_rejected"
    terminalAt := if d.decision = .approve then none else some observed, updatedAt := observed }

def decidedState : ReviewDecisionKind → ReviewState
  | .approve => .approved
  | .reject => .rejected

/-- The checks of a first decision on a proposal. -/
def checkDecision (d : DecisionRequest) (proposal : ActionProposal) (db : ReviewDb) :
    Except PyError Unit := do
  require (proposal.state ≠ .expired) (.valueError "action_proposal_expired")
  require (proposal.state = .pending) (.valueError "action_proposal_not_pending")
  let review ← match db.item? d.reviewId with
    | some review => Except.ok review
    | none => .error (.valueError "action_review_not_pending")
  require (review.state = .pending) (.valueError "action_review_not_pending")
  require (proposal.proposalHash = d.boundProposalHash ∧ review.itemHash = d.boundProposalHash)
    (.valueError "action_proposal_version_changed")
  require (proposal.destinationPurpose = d.destinationPurpose)
    (.valueError "action_decision_destination_mismatch")
  require (proposal.approverPrincipal = d.actorPrincipal)
    (.permissionError "action_decision_actor_denied")
  require (d.destinationPurpose = "task_workspace" ∨
    proposal.notificationGuildId.getD [] = d.guildId ∧
    proposal.notificationChannelId.getD [] = d.channelId ∧
    proposal.notificationMessageId.getD [] ≠ [])
    (.permissionError "action_decision_channel_denied")

/-- The job that executes an approved proposal. -/
def ReviewDb.enqueueExecution (db : ReviewDb) (decision : ReviewDecisionKind)
    (p : ActionProposal) (fresh : Fresh) : Except PyError (Option DurableJob × ReviewDb) :=
  match decision with
  | .approve => do
    let (job, db) ← db.enqueue (executionJob p fresh.jobId) fresh.enqueuedAt
    .ok (some job, db)
  | .reject => .ok (none, db)

/-- `decide_action_proposal` after its sweep. -/
def decideActionProposal (d : DecisionRequest) (fresh : Fresh) :
    Transaction ReviewDb DecidedProposal := fun db => do
  let observed := isoUtc fresh.now
  let proposal ← named (db.proposal? d.proposalId)
  require (proposal.reviewId = d.reviewId) (.keyError "no such row")
  match db.decisionForKey? d.idempotencyKey with
  | some existing =>
    require (existing.reviewId = d.reviewId ∧ existing.decision = d.decision ∧
      existing.actorPrincipal = d.actorPrincipal ∧ existing.reason = d.reason ∧
      existing.boundItemHash = d.boundProposalHash ∧
      proposal.decisionMessageId.getD [] = d.messageId ∧
      proposal.decisionGuildId.getD [] = d.guildId ∧
      proposal.decisionChannelId.getD [] = d.channelId)
      (.valueError "action_decision_idempotency_conflict")
    .ok (⟨existing, proposal, proposal.executionJobId.bind db.jobs.find?⟩, db)
  | none =>
    checkDecision d proposal db
    let decision : ReviewDecision :=
      { decisionId := fresh.decisionId, reviewId := d.reviewId, decision := d.decision
        actorPrincipal := d.actorPrincipal, reason := d.reason, decidedAt := observed
        boundItemHash := d.boundProposalHash, editedValueRef := none
        idempotencyKey := d.idempotencyKey, appliedAt := none, actionReceiptRef := none }
    let db ← db.insertDecision decision
    let (moved, db) := db.updateItem d.reviewId (fun r => r.state = .pending)
      (moveItem (decidedState d.decision) observed)
    require moved (.valueError "action_review_state_changed")
    let (job, db) ← db.enqueueExecution d.decision proposal fresh
    let (changed, db) := db.updateProposal d.proposalId (fun p => p.state = .pending)
      (recordDecision d fresh.decisionId (job.map (·.jobId)) observed)
    require changed (.valueError "action_proposal_state_changed")
    let updated ← found (db.proposal? d.proposalId) "action decision persistence was lost"
    .ok (⟨decision, updated, job⟩, db)

/-- `decide` after its sweep, for a review that is not an action proposal. -/
def decide (reviewId boundItemHash : Str) (decision : ReviewDecisionKind)
    (actorPrincipal reason idempotencyKey : Str) (editedValueRef : Option Str) (fresh : Fresh) :
    Transaction ReviewDb ReviewDecision := fun db => do
  let observed := isoUtc fresh.now
  require (db.proposalForReview? reviewId).isNone
    (.valueError "action_review_requires_bound_decision")
  match db.decisionForKey? idempotencyKey with
  | some existing => .ok (existing, db)
  | none =>
    let row ← named (db.item? reviewId)
    require (row.state ≠ .expired) (.valueError "review_expired")
    require (row.state = .pending) (.valueError "review_not_pending")
    require (row.itemHash = boundItemHash) (.valueError "review_version_changed")
    let recorded : ReviewDecision :=
      { decisionId := fresh.decisionId, reviewId, decision, actorPrincipal, reason
        decidedAt := observed, boundItemHash, editedValueRef, idempotencyKey
        appliedAt := none, actionReceiptRef := none }
    let db ← db.insertDecision recorded
    let (moved, db) := db.updateItem reviewId (fun r => r.state = .pending)
      (moveItem (decidedState decision) observed)
    require moved (.valueError "review_state_changed")
    .ok (recorded, db)

def supersedeItem (replacementReviewId observed : Str) :
    Table.Assignment ReviewItem.reviewId where
  apply r := { r with
    state := .superseded, supersededByReviewId := some replacementReviewId, updatedAt := observed }

/-- The foreign key of `superseded_by_review_id` is checked where a row changes. -/
def supersede (reviewId replacementReviewId : Str) (now : Instant) : Transaction ReviewDb Bool :=
  fun db => do
  let observed := isoUtc now
  let replace (db : ReviewDb) : Except PyError (Bool × ReviewDb) := do
    let (changed, db) := db.updateItem reviewId (fun r => r.state = .pending)
      (supersedeItem replacementReviewId observed)
    require (!changed || (db.item? replacementReviewId).isSome) .integrityError
    .ok (changed, db)
  match db.proposalForReview? reviewId with
  | none => replace db
  | some action =>
    if action.state = .pending then
      replace (db.updateProposal action.proposalId (fun p => p.state = .pending)
        (closeProposal .superseded "approval_superseded" observed)).2
    else .ok (false, db)

def applyDecision (actionReceiptRef : Option Str) (observed : Str) :
    Table.Assignment ReviewDecision.decisionId where
  apply r := { r with
    appliedAt := some (r.appliedAt.getD observed)
    actionReceiptRef := actionReceiptRef.or r.actionReceiptRef }

def markApplied (decisionId : Str) (actionReceiptRef : Option Str) (now : Instant) :
    Transaction ReviewDb Bool := fun db => do
  let observed := isoUtc now
  match db.decisions.find? decisionId with
  | none => .ok (false, db)
  | some row =>
    if row.decision = .approve then
      require (db.proposalForReview? row.reviewId).isNone
        (.valueError "action_review_requires_fenced_execution")
      let decisions := (db.decisions.updateKey decisionId (fun _ => true)
        (applyDecision actionReceiptRef observed)).2
      let state : ReviewState :=
        if actionReceiptRef.getD [] ≠ [] then .executed else .applied
      let (_, db) := { db with decisions }.updateItem row.reviewId (fun _ => true)
        (moveItem state observed)
      .ok (true, db)
    else .ok (false, db)

end Decide

section Execution

/-- The running lease that an execution job has to show. -/
def jobHeld (job : Option DurableJob) (workerId : Str) (fencingToken : Int) : Bool :=
  job.any fun j => j.status = .running && j.leaseOwner.getD [] = workerId &&
    j.leaseFencingToken = fencingToken

def startExecution (fencingToken : Int) (observed : Str) : ProposalAssignment where
  apply r := { r with
    state := .executing, executionFencingToken := some fencingToken, updatedAt := observed }

/-- `begin_action_execution` after its sweep. An executed proposal is returned as it is. -/
def beginActionExecution (proposalId jobId workerId : Str) (fencingToken : Int) (observed : Str) :
    Transaction ReviewDb ActionProposal := fun db => do
  let proposal ← named (db.proposal? proposalId)
  if proposal.state = .executed then .ok (proposal, db)
  else
    require (proposal.state ≠ .expired) (.valueError "action_proposal_expired")
    require (proposal.state = .approved) (.valueError "action_proposal_not_approved")
    let job := (db.jobs.find? jobId).filter fun j =>
      j.aggregateId = proposalId && j.jobType = reviewActionExecutionJob
    require (jobHeld job workerId fencingToken && proposal.executionJobId.getD [] = jobId)
      (.valueError "action_execution_lease_mismatch")
    let (changed, db) := db.updateProposal proposalId (fun p => p.state = .approved)
      (startExecution fencingToken observed)
    require changed (.valueError "action_proposal_state_changed")
    let row ← found (db.proposal? proposalId) "action execution claim was lost"
    .ok (row, db)

def finishExecution (target : ActionProposalState) (receipt : Option Str)
    (reasonCode observed : Str) : ProposalAssignment where
  apply r := { r with
    state := target, destinationArgumentsJson := none, actionReceiptRef := receipt
    terminalReasonCode := some ((orDefault reasonCode "action_execution_terminal").take 120)
    terminalAt := some observed, updatedAt := observed }

def applyReceipt (receipt : Option Str) (observed : Str) :
    Table.Assignment ReviewDecision.decisionId where
  apply r := { r with
    appliedAt := some (r.appliedAt.getD observed)
    actionReceiptRef := r.actionReceiptRef.or receipt }

def outcomeJob (p : ActionProposal) (target : ActionProposalState) (jobId : Str) :
    EnqueueArgs where
  jobId := jobId
  jobType := reviewOutcomeDiscordJob
  aggregateId := p.proposalId
  idempotencyKey := text "review-outcome-discord:v1:" ++ p.proposalId ++ text ":" ++ target.value
  payload :=
    [("proposal_id", .str p.proposalId), ("review_id", .str p.reviewId),
      ("operation_id", .str p.operationId), ("authorization_binding", .str p.authorizationBinding),
      ("state", .str target.value), ("destination_purpose", .str p.destinationPurpose)]
  maxAttempts := 5
  priority := 40

/-- What an executed proposal records on its review and its decision. -/
def ReviewDb.recordExecuted (db : ReviewDb) (p : ActionProposal) (receipt : Option Str)
    (observed : Str) : ReviewDb :=
  let db := (db.updateItem p.reviewId (fun _ => true) (moveItem .executed observed)).2
  match p.decisionId with
  | none => db
  | some decisionId =>
    { db with
      decisions := (db.decisions.updateKey decisionId (fun _ => true)
        (applyReceipt receipt observed)).2 }

/-- The notice of an outcome, where it has a channel. -/
def ReviewDb.enqueueOutcome (db : ReviewDb) (p : ActionProposal) (outcome : ActionProposalState)
    (fresh : Fresh) : Except PyError ReviewDb :=
  if p.destinationPurpose = "human_reviews" then do
    let (_, db) ← db.enqueue (outcomeJob p outcome fresh.jobId) fresh.enqueuedAt
    .ok db
  else .ok db

/-- The receipt of a finish: stripped, and absent where nothing is left. -/
def normalizedReceipt (receiptRef : Option Str) : Option Str :=
  if strip (receiptRef.getD []) = [] then none else some (strip (receiptRef.getD []))

def finishActionExecution (proposalId jobId workerId : Str) (fencingToken : Int)
    (outcome : ActionProposalState) (reasonCode : Str) (receiptRef : Option Str)
    (fresh : Fresh) : Transaction ReviewDb ActionProposal := fun db => do
  require (outcome = .executed ∨ outcome = .denied ∨ outcome = .failedTerminal)
    (.valueError "action_execution_outcome_invalid")
  let receipt := normalizedReceipt receiptRef
  require (outcome ≠ .executed ∨ receipt.isSome) (.valueError "action_execution_receipt_required")
  let observed := isoUtc fresh.now
  let proposal ← named (db.proposal? proposalId)
  if proposal.state = outcome then
    require (proposal.actionReceiptRef.getD [] = receipt.getD [] ∧
      proposal.terminalReasonCode.getD [] = reasonCode)
      (.valueError "action_execution_terminal_conflict")
    .ok (proposal, db)
  else
    require (proposal.state = .executing && proposal.executionJobId.getD [] = jobId &&
      proposal.executionFencingToken.getD 0 = fencingToken)
      (.valueError "action_execution_state_mismatch")
    let job := (db.jobs.find? jobId).filter fun j => j.jobType = reviewActionExecutionJob
    require (jobHeld job workerId fencingToken) (.valueError "action_execution_lease_mismatch")
    let (changed, db) := db.updateProposal proposalId
      (fun p => p.state = .executing && p.executionFencingToken = some fencingToken)
      (finishExecution outcome receipt reasonCode observed)
    require changed (.valueError "action_execution_state_changed")
    let db := if outcome = .executed then db.recordExecuted proposal receipt observed else db
    let db ← db.enqueueOutcome proposal outcome fresh
    let row ← found (db.proposal? proposalId) "action execution outcome was lost"
    .ok (row, db)

def reopenExecution (observed : Str) : ProposalAssignment where
  apply r := { r with state := .approved, executionFencingToken := none, updatedAt := observed }

def retryActionExecutionAfterNoEffect (proposalId jobId workerId : Str) (fencingToken : Int)
    (reconciliation : Str) (now : Instant) : Transaction ReviewDb ActionProposal := fun db => do
  require (PythonText.casefold (strip reconciliation) = "no_effect")
    (.valueError "action_execution_reconciliation_unproven")
  let leased := (db.jobs.find? jobId).any fun j => j.status = .running &&
    j.leaseOwner = some workerId && j.leaseFencingToken = fencingToken
  let (changed, db) := db.updateProposal proposalId
    (fun p => p.state = .executing && p.executionJobId = some jobId &&
      p.executionFencingToken = some fencingToken && leased)
    (reopenExecution (isoUtc now))
  require changed (.valueError "action_execution_recovery_mismatch")
  let row ← found (db.proposal? proposalId) "action execution recovery was lost"
  .ok (row, db)

def cancelApprovedAction (proposalId reasonCode : Str) (now : Instant) :
    Transaction ReviewDb ActionProposal := fun db => do
  let observed := isoUtc now
  let proposal ← named (db.proposal? proposalId)
  if proposal.state = .canceled then .ok (proposal, db)
  else
    require (proposal.state = .approved) (.valueError "action_proposal_not_cancelable")
    let jobId := proposal.executionJobId.getD []
    require ((db.jobs.find? jobId).any fun j => j.waiting || j.status = .cancelled)
      (.valueError "action_execution_claim_or_effect_possible")
    let db := { db with
      jobs := (db.jobs.updateJob jobId (·.waiting) (cancelWaiting observed)).2 }
    let (changed, db) := db.updateProposal proposalId (fun p => p.state = .approved)
      (closeProposal .canceled ((orDefault reasonCode "operator_canceled").take 120) observed)
    require changed (.valueError "action_proposal_state_changed")
    let row ← found (db.proposal? proposalId) "action cancellation was lost"
    .ok (row, db)

end Execution

end HardyAI.Reviews
