import HardyAI.Jobs.Types

/-! The operations of the durable job ledger. Each is one transaction, and each
statement of the source is one update of the ledger under its `WHERE` guard. -/

open Foundation Foundation.Json

namespace HardyAI.Jobs

variable [PythonText]

section Enqueue

def approvalJobFields (jobType : Str) : Option (List Str) :=
  [(reviewNotificationDiscordJob,
      [text "proposal_id", text "review_id", text "operation_id", text "authorization_binding",
        text "batch_manifest_hash", text "transfer_binding_hash", text "destination_purpose"]),
    (reviewActionExecutionJob,
      [text "proposal_id", text "review_id", text "operation_id", text "authorization_binding",
        text "batch_manifest_hash", text "transfer_binding_hash"]),
    (reviewOutcomeDiscordJob,
      [text "proposal_id", text "review_id", text "operation_id", text "authorization_binding",
        text "state", text "destination_purpose"])].lookup jobType

def protectedPrefix (idempotencyKey : Str) : Bool :=
  [text "review-notification-discord:v1:", text "review-action-execution:v1:",
    text "review-outcome-discord:v1:"].any (startsWith idempotencyKey)

/-- `str(payload.get(field) or "").strip()`. -/
def textField (payload : List (Str × Json)) (field : Str) : Except PyError Str :=
  match lookup payload field with
  | some value => if value.truthy then (pyStr value).map strip else .ok []
  | none => .ok []

def isHexDigest : Json → Bool
  | .str s => s.length = 64 && s.all fun c => (text "0123456789abcdef").contains c
  | _ => false

def optionalHashValid (payload : List (Str × Json)) (field : Str) : Bool :=
  match lookup payload field with
  | none | some .null => true
  | some value => isHexDigest value

/-- The idempotency key that an approval job of this type has to carry. -/
def expectedApprovalKey (jobType proposalId reviewId operationId : Str)
    (payload : List (Str × Json)) : Except PyError Str := do
  if jobType = reviewNotificationDiscordJob then
    let destination ← textField payload "destination_purpose"
    .ok (text "review-notification-discord:v1:" ++ proposalId ++ text ":" ++ reviewId ++
      text ":" ++ destination)
  else if jobType = reviewOutcomeDiscordJob then
    let state ← textField payload "state"
    let destination ← textField payload "destination_purpose"
    require ([text "executed", text "denied", text "failed_terminal"].contains state &&
      destination ≠ []) (.valueError "approval_job_outcome_invalid")
    .ok (text "review-outcome-discord:v1:" ++ proposalId ++ text ":" ++ state)
  else
    .ok (text "review-action-execution:v1:" ++ proposalId ++ text ":" ++ operationId)

def validateApprovalJob (jobType aggregateId idempotencyKey : Str)
    (payload : List (Str × Json)) : Except PyError Unit :=
  match approvalJobFields jobType with
  | none => require (!protectedPrefix idempotencyKey)
      (.valueError "approval_job_idempotency_key_reserved")
  | some fields => do
    require (payload.all (fun p => fields.contains p.1) &&
      fields.all fun field => (lookup payload field).isSome)
      (.valueError "approval_job_payload_shape_invalid")
    let proposalId ← textField payload "proposal_id"
    let reviewId ← textField payload "review_id"
    let operationId ← textField payload "operation_id"
    let authorizationBinding ← textField payload "authorization_binding"
    require (proposalId ≠ [] && reviewId ≠ [] && operationId ≠ [] && authorizationBinding ≠ [])
      (.valueError "approval_job_payload_binding_invalid")
    require (aggregateId = proposalId) (.valueError "approval_job_aggregate_mismatch")
    let expected ← expectedApprovalKey jobType proposalId reviewId operationId payload
    require (idempotencyKey = expected) (.valueError "approval_job_idempotency_key_invalid")
    require (optionalHashValid payload "batch_manifest_hash" &&
      optionalHashValid payload "transfer_binding_hash")
      (.valueError "approval_job_manifest_hash_invalid")

/-- `INSERT … ON CONFLICT(idempotency_key) DO NOTHING`. -/
def JobLedger.insertOrIgnore (l : JobLedger) (row : DurableJob) : Except PyError JobLedger :=
  if hkey : row.idempotencyKey ∈ l.jobs.rows.map DurableJob.idempotencyKey then
    if (l.find? row.jobId).isSome then .error .integrityError else .ok l
  else
    match hinsert : l.jobs.insert? row with
    | none => .error .integrityError
    | some jobs => .ok
      { jobs
        idempotencyUnique := by
          rw [(Table.insert?_eq_some hinsert).2, List.map_append, List.map_cons, List.map_nil]
          exact List.nodup_append_comm.1 (List.nodup_cons.2 ⟨hkey, l.idempotencyUnique⟩) }

def rejectApprovalJobConflict (row : DurableJob) (jobType aggregateId idempotencyKey
    payloadJson : Str) : Except PyError Unit :=
  if (approvalJobFields jobType).isNone && (approvalJobFields row.jobType).isNone then .ok ()
  else require (row.jobType = jobType && row.aggregateId = aggregateId &&
    row.idempotencyKey = idempotencyKey && row.payloadJson = payloadJson)
    (.valueError "approval_job_idempotency_conflict")

/-- The arguments of `enqueue_job`, with the job identifier it generates. -/
structure EnqueueArgs where
  jobId : Str
  jobType : Str
  aggregateId : Str
  idempotencyKey : Str
  payload : List (Str × Json)
  availableAt : Option Str := none
  maxAttempts : Int := 3
  priority : Int := 100
  resourceClass : Str := text "cpu_small"
  totalDeadlineAt : Option Str := none

/-- The row that `enqueue_job` inserts. -/
def EnqueueArgs.row (a : EnqueueArgs) (now : Instant) : Except PyError DurableJob := do
  let jobType := strip a.jobType
  let aggregateId := strip a.aggregateId
  let idempotencyKey := strip a.idempotencyKey
  validateApprovalJob jobType aggregateId idempotencyKey a.payload
  let current := isoUtc now
  let payloadJson ← dump true (.obj a.payload)
  let resourceClass ← ResourceClass.ofValue a.resourceClass
  let availableAt := if a.availableAt.getD [] = [] then current else a.availableAt.getD []
  let maxAttempts := max 1 a.maxAttempts
  bindParameters [.text a.jobId, .text jobType, .text aggregateId, .text idempotencyKey,
    .text payloadJson, .text availableAt, .int maxAttempts, .ofText? a.totalDeadlineAt]
  .ok
    { jobId := a.jobId, jobType, aggregateId, idempotencyKey, payloadJson
      status := .pending, availableAt, attemptCount := 0, maxAttempts
      leaseOwner := none, leaseExpiresAt := none, lastErrorCode := none
      createdAt := current, updatedAt := current, leaseFencingToken := 0
      progressCurrent := 0, progressTotal := none, currentStage := none
      stageStartedAt := none, cancelRequestedAt := none, cancelledAt := none
      priority := max 0 (min a.priority 1000), resourceClass
      providerOperationRef := none, providerReconcileState := none
      totalDeadlineAt := a.totalDeadlineAt }

def enqueueJob (a : EnqueueArgs) (now : Instant) : Transaction JobLedger DurableJob := fun l => do
  let row ← a.row now
  let l' ← l.insertOrIgnore row
  match l'.findKey? row.idempotencyKey with
  | none => .error (.runtimeError "durable job enqueue did not produce a row")
  | some persisted =>
    rejectApprovalJobConflict persisted row.jobType row.aggregateId row.idempotencyKey
      row.payloadJson
    .ok (persisted, l')

end Enqueue

section Claim

/-- First sweep: a waiting job whose cancellation was requested. -/
def cancelPending (r : DurableJob) : Bool := r.waiting && r.cancelRequestedAt.isSome

def JobAssignment.sweepCancelled (now : Str) : JobAssignment where
  apply r := { r with
    status := .cancelled, cancelledAt := some now, leaseOwner := none
    leaseExpiresAt := none, updatedAt := now }

/-- Second sweep: a waiting job past its total deadline. -/
def deadlinePassed (now : Str) (r : DurableJob) : Bool :=
  r.waiting && r.totalDeadlineAt.any (· ≤ now)

def JobAssignment.sweepDeadline (now : Str) : JobAssignment where
  apply r := { r with
    status := .deadLetter, lastErrorCode := some "total_deadline_exceeded"
    leaseOwner := none, leaseExpiresAt := none, updatedAt := now }

/-- Third sweep: a running job whose lease has expired. -/
def leaseExpired (now : Str) (r : DurableJob) : Bool :=
  r.status = .running && r.leaseExpiresAt.any (· ≤ now)

/-- The status of a job that gives up its lease without completing. -/
def DurableJob.releasedStatus (r : DurableJob) : JobStatus :=
  if r.cancelRequestedAt.isSome then .cancelled
  else if r.attemptCount ≥ r.maxAttempts then .deadLetter else .retry

def JobAssignment.sweepExpired (now : Str) : JobAssignment where
  apply r := { r with
    status := r.releasedStatus, leaseOwner := none, leaseExpiresAt := none
    availableAt := now, updatedAt := now
    cancelledAt := if r.cancelRequestedAt.isSome then some now else r.cancelledAt
    lastErrorCode := if r.cancelRequestedAt.isSome then some "cancelled"
      else some "lease_expired" }

def JobLedger.sweep (l : JobLedger) (now : Str) : JobLedger :=
  ((l.update cancelPending (.sweepCancelled now)).update
    (deadlinePassed now) (.sweepDeadline now)).update
    (leaseExpired now) (.sweepExpired now)

/-- `ORDER BY priority, available_at, created_at`, ties in table order. -/
def claimOrder (a b : DurableJob) : Prop :=
  a.priority < b.priority ∨ a.priority = b.priority ∧
    (a.availableAt < b.availableAt ∨ a.availableAt = b.availableAt ∧ a.createdAt ≤ b.createdAt)

instance : DecidableRel claimOrder := fun a b => by unfold claimOrder; infer_instance

def due (jobType now : Str) (r : DurableJob) : Bool :=
  r.jobType = jobType && r.waiting && r.availableAt ≤ now && r.attemptCount < r.maxAttempts &&
    r.cancelRequestedAt.isNone && r.totalDeadlineAt.all (now < ·)

def JobLedger.selectDue (l : JobLedger) (jobType now : Str) (limit : Nat) : List Str :=
  (((l.jobs.rows.filter (due jobType now)).insertionSort claimOrder).take limit).map
    DurableJob.jobId

def claimable (r : DurableJob) : Bool := r.waiting && r.cancelRequestedAt.isNone

def JobAssignment.claim (workerId lease now : Str) : JobAssignment where
  apply r := { r with
    status := .running, leaseOwner := some workerId, leaseExpiresAt := some lease
    attemptCount := r.attemptCount + 1, leaseFencingToken := r.leaseFencingToken + 1
    updatedAt := now }

/-- The loop over the selected identifiers: each row that the guarded update
changes is read back and returned. -/
def JobLedger.claimRows (workerId lease now : Str) :
    List Str → JobLedger → List DurableJob × JobLedger
  | [], l => ([], l)
  | jobId :: rest, l =>
    let updated := l.updateJob jobId claimable (.claim workerId lease now)
    let claimed := claimRows workerId lease now rest updated.2
    (if updated.1 then (updated.2.find? jobId).toList ++ claimed.1 else claimed.1, claimed.2)

def claimJobs (jobType workerId : Str) (limit : Int) (leaseSeconds : Seconds) (now : Instant) :
    Transaction JobLedger (List DurableJob) := fun l => do
  let leaseEnd ← now.add (leaseSeconds.atLeast 1000000)
  let current := isoUtc now
  let bounded := (max 1 (min limit 100)).toNat
  bindParameters [.text jobType]
  let swept := l.sweep current
  let selected := swept.selectDue jobType current bounded
  bindParameters (if selected.isEmpty then [] else [.text workerId])
  .ok (JobLedger.claimRows workerId (isoUtc leaseEnd) current selected swept)

end Claim

section Fenced

/-- The lease parameters that every fenced statement binds. -/
def leaseParameters (jobId workerId : Str) (token : Option Int) : List Parameter :=
  [.text jobId, .text workerId, .ofInt? token]

def JobAssignment.complete (now : Str) : JobAssignment where
  apply r := { r with
    status := .completed, leaseOwner := none, leaseExpiresAt := none
    progressCurrent := r.progressTotal.getD r.progressCurrent, updatedAt := now }

def completeJob (jobId workerId : Str) (token : Option Int) (now : Instant) :
    Transaction JobLedger Bool := fun l => do
  bindParameters (leaseParameters jobId workerId token)
  .ok <| l.updateJob jobId
    (fun r => r.status = .running && r.cancelRequestedAt.isNone && r.leasedBy workerId token)
    (.complete (isoUtc now))

/-- The columns `retry_job` sets, computed from the row it has read. -/
def JobAssignment.retryAs (read : DurableJob) (availableAt errorCode now : Str) :
    JobAssignment where
  apply r := { r with
    status := read.releasedStatus, availableAt, leaseOwner := none, leaseExpiresAt := none
    lastErrorCode := some errorCode
    cancelledAt := if read.cancelRequestedAt.isSome then some now else none, updatedAt := now }

def retryJob (jobId workerId errorCode : Str) (delaySeconds : Seconds) (token : Option Int)
    (now : Instant) : Transaction JobLedger Bool := fun l => do
  bindParameters (leaseParameters jobId workerId token)
  match (l.find? jobId).filter (·.leasedBy workerId token) with
  | none => .ok (false, l)
  | some row =>
    let availableAt ← now.add (delaySeconds.atLeast 0)
    bindParameters [.text (errorCode.take 120)]
    .ok <| l.updateJob jobId (·.leasedBy workerId token)
      (.retryAs row (isoUtc availableAt) (errorCode.take 120) (isoUtc now))

/-- The guard that `defer_job` and the in-lease writers share. -/
def activeLease (workerId : Str) (token : Int) (r : DurableJob) : Bool :=
  r.status = .running && r.leasedBy workerId (some token) && r.cancelRequestedAt.isNone

def orDefault (value default : Str) : Str := if value = [] then default else value

def JobAssignment.defer (availableAt reconcileState now : Str) : JobAssignment where
  apply r := { r with
    status := .retry, availableAt, attemptCount := max 0 (r.attemptCount - 1)
    leaseOwner := none, leaseExpiresAt := none
    providerReconcileState := some reconcileState, updatedAt := now }

def deferJob (jobId workerId : Str) (token : Int) (delaySeconds : Seconds)
    (reconcileState : Str) (now : Instant) : Transaction JobLedger Bool := fun l => do
  let availableAt ← now.add (delaySeconds.atLeast 0)
  let state := (orDefault reconcileState "pending").take 80
  bindParameters (.text state :: leaseParameters jobId workerId (some token))
  .ok <| l.updateJob jobId (activeLease workerId token)
    (.defer (isoUtc availableAt) state (isoUtc now))

def JobAssignment.deadLetter (errorCode now : Str) : JobAssignment where
  apply r := { r with
    status := .deadLetter, leaseOwner := none, leaseExpiresAt := none
    lastErrorCode := some errorCode, updatedAt := now }

def deadLetterJob (jobId workerId : Str) (token : Int) (errorCode : Str) (now : Instant) :
    Transaction JobLedger Bool := fun l => do
  let code := (orDefault errorCode "job_rejected").take 120
  bindParameters (.text code :: leaseParameters jobId workerId (some token))
  .ok <| l.updateJob jobId
    (fun r => r.status = .running && r.leasedBy workerId (some token))
    (.deadLetter code (isoUtc now))

def JobAssignment.renew (leaseEnd now : Str) : JobAssignment where
  apply r := { r with leaseExpiresAt := some leaseEnd, updatedAt := now }

def renewLease (jobId workerId : Str) (token : Int) (leaseSeconds : Seconds) (now : Instant) :
    Transaction JobLedger Bool := fun l => do
  let leaseEnd ← now.add (leaseSeconds.atLeast 1000000)
  bindParameters (leaseParameters jobId workerId (some token))
  .ok <| l.updateJob jobId (activeLease workerId token)
    (.renew (isoUtc leaseEnd) (isoUtc now))

def JobAssignment.progress (stage : Str) (current : Int) (total : Option Int) (now : Str) :
    JobAssignment where
  apply r := { r with
    currentStage := some stage, progressCurrent := current, progressTotal := total
    stageStartedAt := if r.currentStage = some stage then r.stageStartedAt else some now
    updatedAt := now }

def updateProgress (jobId workerId : Str) (token : Int) (stage : Str) (current : Int)
    (total : Option Int) (now : Instant) : Transaction JobLedger Bool := fun l => do
  let normalizedStage := PythonText.casefold (strip stage)
  require (normalizedStage ≠ [] && normalizedStage.length ≤ 80) (.valueError "invalid job stage")
  let boundedCurrent := max 0 current
  let boundedTotal := total.map (max boundedCurrent)
  bindParameters (.text normalizedStage :: .int boundedCurrent :: .ofInt? boundedTotal ::
    leaseParameters jobId workerId (some token))
  .ok <| l.updateJob jobId (activeLease workerId token)
    (.progress normalizedStage boundedCurrent boundedTotal (isoUtc now))

def JobAssignment.checkpoint (payloadJson now : Str) : JobAssignment where
  apply r := { r with payloadJson, updatedAt := now }

def checkpointPayload (jobId workerId : Str) (token : Int) (payload : List (Str × Json))
    (now : Instant) : Transaction JobLedger Bool := fun l => do
  let encoded ← dump true (.obj payload)
  require (encoded.length ≤ 65536)
    (.valueError "job checkpoint payload exceeds 65536 characters")
  bindParameters (.text encoded :: leaseParameters jobId workerId (some token))
  .ok <| l.updateJob jobId (activeLease workerId token)
    (.checkpoint encoded (isoUtc now))

def JobAssignment.setProvider (operation state now : Str) : JobAssignment where
  apply r := { r with
    providerOperationRef := some operation, providerReconcileState := some state
    updatedAt := now }

def setProviderOperation (jobId workerId : Str) (token : Int) (operationRef reconcileState : Str)
    (now : Instant) : Transaction JobLedger Bool := fun l => do
  let operation := (strip operationRef).take 240
  let state := (PythonText.casefold (strip reconcileState)).take 80
  require (operation ≠ [] && state ≠ [])
    (.valueError "provider operation and reconciliation state are required")
  bindParameters (.text operation :: .text state :: leaseParameters jobId workerId (some token))
  .ok <| l.updateJob jobId (activeLease workerId token)
    (.setProvider operation state (isoUtc now))

def JobAssignment.acknowledgeCancel (now : Str) : JobAssignment where
  apply r := { r with
    status := .cancelled, cancelledAt := some now, leaseOwner := none
    leaseExpiresAt := none, lastErrorCode := some "cancelled", updatedAt := now }

def acknowledgeCancel (jobId workerId : Str) (token : Int) (now : Instant) :
    Transaction JobLedger Bool := fun l => do
  bindParameters (leaseParameters jobId workerId (some token))
  .ok <| l.updateJob jobId
    (fun r => r.status = .running && r.leasedBy workerId (some token) &&
      r.cancelRequestedAt.isSome)
    (.acknowledgeCancel (isoUtc now))

end Fenced

section Owner

def JobAssignment.release (reconcileState now : Str) : JobAssignment where
  apply r := { r with
    availableAt := now, providerReconcileState := some reconcileState, updatedAt := now }

def releaseJobs (jobType aggregateId reconcileState : Str) (now : Instant) :
    Transaction JobLedger Nat := fun l => do
  let normalizedType := strip jobType
  let normalizedAggregate := strip aggregateId
  let normalizedState := (PythonText.casefold (strip reconcileState)).take 80
  require (normalizedType ≠ [] && normalizedAggregate ≠ [] && normalizedState ≠ [])
    (.valueError "job type, aggregate ID, and reconciliation state are required")
  bindParameters [.text normalizedState, .text normalizedType, .text normalizedAggregate]
  let released (r : DurableJob) : Bool := r.jobType = normalizedType &&
    r.aggregateId = normalizedAggregate && r.waiting && r.cancelRequestedAt.isNone
  .ok (l.jobs.count released,
    l.update released (.release normalizedState (isoUtc now)))

def JobAssignment.requestCancel (now : Str) : JobAssignment where
  apply r := { r with
    cancelRequestedAt := some (r.cancelRequestedAt.getD now)
    status := if r.waiting then .cancelled else r.status
    cancelledAt := if r.waiting then some now else r.cancelledAt
    leaseOwner := if r.waiting then none else r.leaseOwner
    leaseExpiresAt := if r.waiting then none else r.leaseExpiresAt
    updatedAt := now }

def requestCancel (jobId : Str) (now : Instant) : Transaction JobLedger (Option DurableJob) :=
  fun l => do
  bindParameters [.text jobId]
  match l.find? jobId with
  | none => .ok (none, l)
  | some row =>
    if row.finished then .ok (some row, l)
    else
      let l' := (l.updateJob jobId (fun _ => true) (.requestCancel (isoUtc now))).2
      .ok (l'.find? jobId, l')

/-- The guard of `requeue_job`. -/
def requeueable (r : DurableJob) : Bool := r.status = .deadLetter ∨ r.status = .cancelled

def JobAssignment.requeue (availableAt now : Str) : JobAssignment where
  apply r := { r with
    status := .retry, availableAt, attemptCount := 0, leaseOwner := none
    leaseExpiresAt := none, cancelRequestedAt := none, cancelledAt := none
    lastErrorCode := none, updatedAt := now }

def requeueJob (jobId : Str) (delaySeconds : Seconds) (now : Instant) :
    Transaction JobLedger (Option DurableJob) := fun l => do
  let availableAt ← now.add (delaySeconds.atLeast 0)
  bindParameters [.text jobId]
  let l' := (l.updateJob jobId requeueable
    (.requeue (isoUtc availableAt) (isoUtc now))).2
  .ok (l'.find? jobId, l')

end Owner

end HardyAI.Jobs
