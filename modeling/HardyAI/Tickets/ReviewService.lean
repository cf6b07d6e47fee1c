import HardyAI.Tickets.RemediationService

/-! `TicketReviewService`: the observations of the verifiers, the decision, and what follows
from it. -/

open Foundation Foundation.Json HardyAI.Jobs

namespace HardyAI.Tickets

section Decision

def confidenceOne : BitVec 64 := 0x3FF0000000000000

def evidenceRefs (observations : List SourceObservation) : List Str :=
  observations.map SourceObservation.evidenceId

def inconclusive (observations : List SourceObservation) (summary : Str) : ReviewDecision :=
  ⟨.inconclusive, 0, summary, evidenceRefs observations, [], none⟩

/-- The set of the deterministic verdicts. -/
def verdicts (observations : List SourceObservation) : List ReviewVerdict :=
  observations.map SourceObservation.deterministicVerdict

/-- `_effective_decision`. -/
def effectiveDecision (model : ReviewDecision) (observations : List SourceObservation)
    (later : List Ticket) : ReviewDecision :=
  let deterministic := verdicts observations
  if .incorrect ∈ deterministic ∧ later ≠ [] then
    ⟨.superseded, confidenceOne,
      "A later committed ticket changed the same resource after this operation.",
      evidenceRefs observations, [], none⟩
  else if .inconclusive ∈ deterministic then
    inconclusive observations
      "At least one trusted source verifier could not produce conclusive evidence."
  else if .incorrect ∈ deterministic ∧ model.verdict ≠ .incorrect then
    inconclusive observations
      "The model verdict conflicts with the trusted deterministic source comparison."
  else if deterministic ≠ [] ∧ (∀ v ∈ deterministic, v = .correct) ∧ model.verdict ≠ .correct then
    inconclusive observations
      "The model verdict conflicts with source observations that satisfy all expectations."
  else model

end Decision

section Observation

/-- `_inconclusive_observation`. -/
def inconclusiveObservation (e : Expectation) (receipt : Option ReceiptRow) (errorCode : Str)
    (evidenceId : Str) : SourceObservation where
  verifierName := orText e.validatorName "unknown"
  verifierVersion := orText e.validatorVersion "unknown"
  resourceKey := (receipt.map fun r => r.resourceKey).getD []
  existing := none
  normalizedState := []
  deterministicVerdict := .inconclusive
  observedAt := (receipt.bind fun r => r.committedAt).getD []
  evidenceId := evidenceId
  limitations := [errorCode]
  errorCode := some errorCode

/-- The receipt of an operation, the last one where there are several. -/
def receiptOf (receipts : List ReceiptRow) (operationId : Str) : Option ReceiptRow :=
  receipts.reverse.find? fun r => r.operationId = operationId

def observeExpectation (receipts : List ReceiptRow) (e : Expectation) :
    Process SourceObservation := do
  let receipt := receiptOf receipts e.operationId
  match ← ask (.observe e receipt) with
  | none =>
    let evidenceId ← ask .newId
    pure (inconclusiveObservation e receipt "trusted_verifier_not_registered" evidenceId)
  | some observation => .ofExcept observation

/-- The loop over the expectations. -/
def observeAll (receipts : List ReceiptRow) : List Expectation → Process (List SourceObservation)
  | [] => pure []
  | e :: rest => do
    let observation ← observeExpectation receipts e
    let observations ← observeAll receipts rest
    pure (observation :: observations)

end Observation

section Review

variable [PythonText]

inductive ReviewOutcome
  | ignored (reason : Str)
  | remediationQueued (ticket child : Option Ticket) (decision : ReviewDecision)
  | completed (ticket : Option Ticket) (decision : ReviewDecision)

/-- `str(payload.get("ticket_id") or job.get("aggregate_id") or "")`. -/
def jobTicketId (cfg : ReviewConfig) (job : DurableJob) : Except PyError Str :=
  textOr (lookup (cfg.payload job) "ticket_id") job.aggregateId

/-- `",".join(sorted({…}))`. -/
def verdictText (observations : List SourceObservation) : Str :=
  join "," (((verdicts observations).map fun v => text v.value).dedup.insertionSort (· ≤ ·))

/-- The terminal status of a review without a remediation. -/
def settleTransition (ticketId : Str) : ReviewVerdict → Str → TransitionArgs
  | .correct, _ =>
    { ticketId, status := .verified, terminalReason := some (text "source_truth_verified") }
  | .superseded, _ =>
    { ticketId, status := .superseded
      terminalReason := some (text "later_committed_ticket_changed_resource") }
  | .inconclusive, _ =>
    { ticketId, status := .unverifiable, terminalReason := some (text "review_inconclusive") }
  | .incorrect, reason =>
    { ticketId
      status := if reason = text "remediation_generation_cap_reached" then .escalated
        else .reconciliationRequired
      terminalReason := some reason }

/-- The transition and the projection that end a review. -/
def finishReview (cfg : ReviewConfig) (ticketId : Str) (decision : ReviewDecision)
    (reason : Str) : Process ReviewOutcome := do
  let updated ← transitionProcess (settleTransition ticketId decision.verdict reason)
  enqueuePlane cfg ticketId
  pure (.completed updated decision)

/-- What follows from the decision. -/
def settleReview (cfg : ReviewConfig) (ticket : Ticket) (completedAt : Str)
    (expectations : List Expectation) (decision : ReviewDecision) : Process ReviewOutcome :=
  match decision.verdict with
  | .correct | .superseded | .inconclusive => finishReview cfg ticket.ticketId decision []
  | .incorrect => do
    let policy ← .ofExcept (evaluate cfg.maxGeneration ticket decision.repair expectations)
    match policy.repair with
    | some repair =>
      if cfg.autoRemediationEnabled ∧ policy.allowed then do
        let child ← remediate cfg ticket repair completedAt
        let updated ← ask (.getTicket ticket.ticketId)
        enqueuePlane cfg ticket.ticketId
        match child with
        | some child => enqueuePlane cfg child.ticketId
        | none => pure ()
        pure (.remediationQueued updated child decision)
      else finishReview cfg ticket.ticketId decision policy.reason
    | none => finishReview cfg ticket.ticketId decision policy.reason

/-- The evidence and the result of a review, on its run and among the ticket's entries. -/
def recordReview (cfg : ReviewConfig) (ticketId reviewRunId : Str) (contextHash : Str)
    (observations : List SourceObservation) (decision : ReviewDecision) : Process Unit := do
  let payloads := observations.map SourceObservation.toJson
  let evidenceHash ← .ofExcept (contentHash (.arr payloads))
  let _ ← Program.raising (ask (.completeReviewRun
    { reviewRunId, status := .completed, deterministicVerdict := some (verdictText observations)
      modelVerdict := some decision.verdict.value, modelName := some cfg.modelName
      contextPackHash := some contextHash
      sourceEvidence := .obj [("observations", .arr payloads)]
      sourceEvidenceHash := some evidenceHash
      discrepancy := decision.mismatches.map Json.obj
      proposedRepair := decision.repair.map ReviewRepair.toJson }))
  let requestId := text "review:" ++ reviewRunId
  let reviewKey := text "ticket:" ++ ticketId ++ text ":review:" ++ reviewRunId
  appendEntryProcess ticketId requestId .sourceObservation "verifier" none none
    (.obj [("observations", .arr payloads)]) (reviewKey ++ text ":source")
  appendEntryProcess ticketId requestId .reviewResult "review_model" (some cfg.modelName) none
    decision.toJson (reviewKey ++ text ":result")

/-- The body of the `try` statement. -/
def conductReview (cfg : ReviewConfig) (ticket : Ticket) (reviewRunId completedAt : Str) :
    Process ReviewOutcome := do
  let expectations ← ask (.listExpectations ticket.ticketId)
  let receipts ← ask (.listReceipts ticket.ticketId)
  let observations ← observeAll receipts expectations
  let later ← ask (.findLaterTickets (ticket.resourceKey.getD [])
    (orText (ticket.completedAt.getD []) ticket.createdAt) ticket.ticketId)
  let contextHash ← Program.raising (ask (.buildContext ticket.ticketId))
  let model ← Program.raising (ask (.review contextHash))
  let decision := effectiveDecision model observations later
  recordReview cfg ticket.ticketId reviewRunId contextHash observations decision
  settleReview cfg ticket completedAt expectations decision

/-- The handler of the `try` statement. -/
def failReview (cfg : ReviewConfig) (ticketId reviewRunId : Str) (e : PyError) :
    Process ReviewOutcome := do
  let _ ← Program.raising (ask (.completeReviewRun
    { reviewRunId, status := .failed, modelName := some cfg.modelName
      errorCode := some (text e.className) }))
  let _ ← transitionProcess
    { ticketId, status := .verificationPending
      terminalReason := some (text "review_retry:" ++ text e.className) }
  .raise e

/-- `process_job`; `completedAt` is the clock that a failing remediation reads. -/
def processJob (cfg : ReviewConfig) (job : DurableJob) (completedAt : Str) :
    Process ReviewOutcome := do
  let ticketId ← .ofExcept (jobTicketId cfg job)
  let revision ← .ofExcept (textOr (lookup (cfg.payload job) "source_action_revision") [])
  match ← ask (.getTicket ticketId) with
  | none => pure (.ignored "ticket_missing")
  | some ticket =>
    if ticket.sourceActionRevision.getD [] ≠ revision then
      pure (.ignored "source_action_revision_changed")
    else if ticket.status ≠ .verificationPending ∧ ticket.status ≠ .verifying then
      pure (.ignored "ticket_not_reviewable")
    else do
      let reviewRunId ← ask .newId
      let run ← Program.raising (ask (.startReviewRun
        { reviewRunId, ticketId, sourceActionRevision := revision
          attemptNumber := if job.attemptCount = 0 then 1 else job.attemptCount
          promptVersion := cfg.promptVersion }))
      let _ ← transitionProcess { ticketId, status := .verifying }
      (conductReview cfg ticket run.reviewRunId completedAt).handle
        (failReview cfg ticketId run.reviewRunId)

end Review

end HardyAI.Tickets
