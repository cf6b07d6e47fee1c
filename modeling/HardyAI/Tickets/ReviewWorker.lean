import HardyAI.Tickets.ReviewService

/-! `TicketReviewWorker.run_once`: the watchdogs first, then the reviews. -/

open Foundation Foundation.Json HardyAI.Jobs

namespace HardyAI.Tickets

/-- `isinstance(exc, (KeyError, TypeError, ValueError))`. -/
def caught : PyError → Bool
  | .keyError _ | .typeError => true
  | e => e.isValueError

/-- `try … except (KeyError, TypeError, ValueError)`, with no value where it was caught. -/
def attempt {α : Type} (p : Process α) : Process (Option α) :=
  (p.bind fun a => .pure (some a)).handle fun e => if caught e then .pure none else .raise e

/-- An item of the results of a round. -/
inductive WorkerResult
  | reconciliationRequired (ticketId : Str)
  | reduced (status : TicketStatus) (ticketId : Str) (effectStatus : AggregateStatus)
  | verificationPending (ticketId : Str)
  | watchdogCleared (ticketId : Str)
  | reviewed (outcome : ReviewOutcome)
  | deadLetter (errorCode : Str)
  | retry (errorCode : Str)

variable [PythonText]

section Watchdog

/-- The move to `reconciliation_required`. -/
def reconcileTicket (ticketId reason : Str) : Process WorkerResult := do
  let _ ← transitionProcess
    { ticketId, status := .reconciliationRequired, terminalReason := some reason }
  pure (.reconciliationRequired ticketId)

/-- The loop over the receipts that completes what an older version has left. -/
def recordCompletions (ticketId requestId : Str) : List ReceiptRow → Process Unit
  | [] => pure ()
  | receipt :: rest => do
    let expectationId ← ask .newId
    let entryId ← ask .newId
    let _ ← Program.raising (ask (.recordOperationCompletion
      { ticketId, requestId, receipt := receipt.toOperationReceipt, expectationId, entryId }))
    recordCompletions ticketId requestId rest

/-- What the revision of a verification is the hash of. -/
def ReceiptRow.revision (r : ReceiptRow) : Json :=
  .obj [("operation_id", .str r.operationId),
    ("provider_revision", optionalText r.providerRevision),
    ("expected_effect", .obj r.expectedEffect)]

/-- The resource of all receipts, or a name for several. -/
def resourceKeyOf (ticketId : Str) (receipts : List ReceiptRow) : Str :=
  match (receipts.map fun r => r.resourceKey).dedup with
  | [key] => key
  | _ => text "multi:" ++ ticketId

/-- Every receipt has its expectation, every expectation its receipt, and there is one. -/
def finalized (receipts : List ReceiptRow) (expectations : List Expectation) : Bool :=
  !receipts.isEmpty &&
    receipts.all (fun r => expectations.any fun e => e.operationId = r.operationId) &&
    expectations.all fun e => receipts.any fun r => r.operationId = e.operationId

/-- The part of `_schedule_verification_from_receipts` after the repair. -/
def scheduleFinalized (cfg : ReviewConfig) (ticketId : Str) (receipts : List ReceiptRow) :
    Process WorkerResult := do
  let expectations ← ask (.listExpectations ticketId)
  if finalized receipts expectations = false then
    reconcileTicket ticketId "effect_receipt_finalization_incomplete"
  else do
    let sourceRevision ← .ofExcept (contentHash (.arr (receipts.map ReceiptRow.revision)))
    let expectedHash ← .ofExcept
      (contentHash (.arr (receipts.map fun r => .obj r.expectedEffect)))
    let _ ← transitionProcess
      { ticketId, status := .executing, resourceKey := some (resourceKeyOf ticketId receipts)
        sourceActionRevision := some sourceRevision, expectedEffectHash := some expectedHash }
    let jobId ← ask .newId
    let _ ← Program.raising (ask (.scheduleVerification
      { ticketId, sourceActionRevision := sourceRevision
        delaySeconds := cfg.reviewDelaySeconds, maxAttempts := cfg.reviewMaxAttempts, jobId }))
    pure (.verificationPending ticketId)

/-- `_schedule_verification_from_receipts` with `repair_legacy_completion`. -/
def scheduleRepaired (cfg : ReviewConfig) (ticketId : Str) : Process WorkerResult := do
  let receipts ← ask (.listReceipts ticketId)
  let ticket ← ask (.getTicket ticketId)
  let requestId := orText ((ticket.map Ticket.originRequestId).getD [])
    (text "watchdog:" ++ ticketId)
  match ← attempt (recordCompletions ticketId requestId receipts) with
  | none => reconcileTicket ticketId "effect_receipt_finalization_conflict"
  | some () => scheduleFinalized cfg ticketId receipts

/-- `_schedule_verification_from_receipts` without it. -/
def scheduleFromReceipts (cfg : ReviewConfig) (ticketId : Str) : Process WorkerResult := do
  let receipts ← ask (.listReceipts ticketId)
  scheduleFinalized cfg ticketId receipts

/-- The status that `_reduce_manifest_watchdog` sets for an aggregate. -/
def watchdogTarget (status : AggregateStatus) : TicketStatus :=
  if status = .failed then .escalated else .reconciliationRequired

/-- `_reduce_manifest_watchdog` on a ticket that has a manifest. -/
def reduceWatchdog (cfg : ReviewConfig) (ticketId : Str) : Process WorkerResult := do
  match ← attempt (reduceProcess ticketId) with
  | none => reconcileTicket ticketId "effect_reducer_conflict"
  | some aggregate =>
    if aggregate.status = .completed then scheduleFromReceipts cfg ticketId
    else do
      let _ ← transitionProcess
        { ticketId, status := watchdogTarget aggregate.status
          terminalReason := some (text aggregate.reason) }
      pure (.reduced (watchdogTarget aggregate.status) ticketId aggregate.status)

/-- What follows where there is no manifest. -/
def receiptWatchdog (cfg : ReviewConfig) (ticketId : Str) (status : TicketStatus) :
    Process WorkerResult := do
  if status = .captured ∨ status = .executing then do
    match ← ask (.listReceipts ticketId) with
    | [] => reconcileTicket ticketId "execution_interrupted_before_receipt"
    | _ :: _ => scheduleRepaired cfg ticketId
  else pure (.watchdogCleared ticketId)

/-- The statuses that a watchdog looks at. -/
def watched (status : TicketStatus) : Bool :=
  status = .captured || status = .executing || status = .reconciliationRequired

def watchTicket (cfg : ReviewConfig) (ticketId : Str) : Option Ticket → Process WorkerResult
  | none => pure (.watchdogCleared ticketId)
  | some ticket =>
    if watched ticket.status then do
      match ← ask (.listExecutionManifests ticketId) with
      | [] => receiptWatchdog cfg ticketId ticket.status
      | _ :: _ => reduceWatchdog cfg ticketId
    else pure (.watchdogCleared ticketId)

/-- One round of the loop over the watchdogs. -/
def runWatchdog (cfg : ReviewConfig) (job : DurableJob) : Process WorkerResult := do
  let ticketId ← .ofExcept (jobTicketId cfg job)
  let ticket ← ask (.getTicket ticketId)
  let result ← watchTicket cfg ticketId ticket
  let _ ← Program.raising (ask (.completeJob job.jobId cfg.workerId))
  pure result

def runWatchdogs (cfg : ReviewConfig) : List DurableJob → Process (List WorkerResult)
  | [] => pure []
  | job :: rest => do
    let result ← runWatchdog cfg job
    let results ← runWatchdogs cfg rest
    pure (result :: results)

end Watchdog

section Review

/-- `min(300.0, float(2 ** max(0, attempt - 1)))`, where a float has no room from 1024 on. -/
def retryDelay (attemptCount : Int) : Except PyError Seconds :=
  let n := (max 0 ((if attemptCount = 0 then 1 else attemptCount) - 1)).toNat
  if 1024 ≤ n then .error .overflowError
  else .ok (.micros (min 300 (2 ^ n) * 1000000))

/-- The ticket of a job that has run out of attempts. -/
def escalateTicket (cfg : ReviewConfig) (ticketId : Str) (e : PyError) : Process Unit := do
  let updated ← transitionProcess
    { ticketId, status := .escalated
      terminalReason := some (text "verification_attempts_exhausted:" ++ text e.className) }
  match updated with
  | none => pure ()
  | some ticket =>
    if cfg.planeEnabled = false then pure ()
    else do
      let jobId ← ask .newId
      let _ ← Program.raising (ask (.enqueueJob
        { jobId, jobType := "plane_sync", aggregateId := ticketId
          idempotencyKey := text "plane-sync:" ++ ticketId ++ text ":" ++
            intText ticket.version ++ text ":" ++ text ticket.status.value
          payload := [("ticket_id", .str ticketId)] }))
      pure ()

/-- The handler of the loop over the reviews. -/
def retryReview (cfg : ReviewConfig) (job : DurableJob) (e : PyError) : Process WorkerResult := do
  let delay ← .ofExcept (retryDelay job.attemptCount)
  let _ ← Program.raising (ask (.retryJob job.jobId cfg.workerId (text e.className) delay))
  let persisted ← ask (.getJob job.jobId)
  if persisted.any (fun row => row.status = .deadLetter) then do
    let ticketId ← .ofExcept (jobTicketId cfg job)
    if ticketId = [] then pure (.deadLetter (text e.className))
    else do
      escalateTicket cfg ticketId e
      pure (.deadLetter (text e.className))
  else pure (.retry (text e.className))

/-- The `try` statement of the loop over the reviews. -/
def reviewJob (cfg : ReviewConfig) (job : DurableJob) (completedAt : Str) :
    Process WorkerResult := do
  let outcome ← processJob cfg job completedAt
  let _ ← Program.raising (ask (.completeJob job.jobId cfg.workerId))
  pure (.reviewed outcome)

def runReviews (cfg : ReviewConfig) (completedAt : Str) :
    List DurableJob → Process (List WorkerResult)
  | [] => pure []
  | job :: rest => do
    let result ← (reviewJob cfg job completedAt).handle (retryReview cfg job)
    let results ← runReviews cfg completedAt rest
    pure (result :: results)

end Review

def watchdogType : Str := "ticket_watchdog"
def reviewType : Str := "ticket_review"

/-- `run_once`; `completedAt` is the clock that a failing remediation reads. -/
def runOnce (cfg : ReviewConfig) (completedAt : Str) : Process (List WorkerResult) := do
  if ← ask .hasRecentLiveInput then pure []
  else do
    let watchdogs ← Program.raising
      (ask (.claimJobs watchdogType cfg.workerId cfg.batchSize (.micros 60000000)))
    let cleared ← runWatchdogs cfg watchdogs
    let jobs ← Program.raising
      (ask (.claimJobs reviewType cfg.workerId cfg.batchSize cfg.leaseSeconds))
    let reviewed ← runReviews cfg completedAt jobs
    pure (cleared ++ reviewed)

end HardyAI.Tickets
