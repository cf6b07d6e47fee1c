import HardyAI.Foundation.Program
import HardyAI.Tickets.AsyncReceipts

/-! What the review worker asks for: the ticket repository, the job ledger, the verifiers, the
model and the remediation gateway. -/

open Foundation Foundation.Json HardyAI.Jobs

namespace HardyAI.Tickets

abbrev Fields := List (Str × Json)

inductive Op
  | newId
  | getTicket (ticketId : Str)
  | getTicketByRequestId (requestId : Str)
  | createTicket (a : CreateArgs)
  | transitionTicket (a : TransitionArgs)
  | appendEntry (a : EntryArgs)
  | getEntryByDedupe (dedupeKey : Str)
  | listEntries (ticketId : Str)
  | listExecutionManifests (ticketId : Str)
  | listReceipts (ticketId : Str)
  | listExpectations (ticketId : Str)
  | reserve (a : ReserveArgs)
  | recordChildOutcome (a : OutcomeArgs)
  | recordOperationCompletion (a : CompletionArgs)
  | scheduleVerification (a : ScheduleArgs)
  | startReviewRun (a : ReviewStart)
  | completeReviewRun (a : ReviewEnd)
  | findLaterTickets (resourceKey completedAfter exclude : Str)
  | enqueueJob (a : EnqueueArgs)
  | claimJobs (jobType workerId : Str) (limit : Int) (leaseSeconds : Seconds)
  | completeJob (jobId workerId : Str)
  | retryJob (jobId workerId errorCode : Str) (delaySeconds : Seconds)
  | getJob (jobId : Str)
  /-- The registered verifier's observation, if there is such a verifier. -/
  | observe (e : Expectation) (receipt : Option ReceiptRow)
  | buildContext (ticketId : Str)
  | review (contextHash : Str)
  | executeRemediation (operationId capability : Str) (entities : Fields)
  | hasRecentLiveInput

abbrev Op.Reply : Op → Type
  | .newId => Str
  | .getTicket _ | .getTicketByRequestId _ => Option Ticket
  | .createTicket _ | .transitionTicket _ => Except PyError (Option Ticket)
  | .appendEntry _ | .reserve _ | .recordChildOutcome _ => Except PyError TicketEntry
  | .getEntryByDedupe _ => Option TicketEntry
  | .listEntries _ | .listExecutionManifests _ => List TicketEntry
  | .listReceipts _ => List ReceiptRow
  | .listExpectations _ => List Expectation
  | .recordOperationCompletion _ => Except PyError (ReceiptRow × Expectation × TicketEntry)
  | .scheduleVerification _ | .enqueueJob _ => Except PyError DurableJob
  | .startReviewRun _ => Except PyError ReviewRun
  | .completeReviewRun _ => Except PyError (Option ReviewRun)
  | .findLaterTickets .. => List Ticket
  | .claimJobs .. => Except PyError (List DurableJob)
  | .completeJob .. | .retryJob .. => Except PyError Bool
  | .getJob _ => Option DurableJob
  | .observe .. => Option (Except PyError SourceObservation)
  | .buildContext _ => Except PyError Str
  | .review _ => Except PyError ReviewDecision
  | .executeRemediation .. => Except PyError Json
  | .hasRecentLiveInput => Bool

abbrev Process (α : Type) := Program Op Op.Reply α

def ask (op : Op) : Process op.Reply := Program.perform op

structure ReviewConfig where
  workerId : Str
  batchSize : Int
  leaseSeconds : Seconds
  reviewDelaySeconds : Seconds
  reviewMaxAttempts : Int
  promptVersion : Str
  modelName : Str
  autoRemediationEnabled : Bool
  maxGeneration : Int
  planeEnabled : Bool
  hasGateway : Bool
  /-- The payload that `json.loads` reads from a job's row. -/
  payload : DurableJob → Fields

section Shared

/-- `_enqueue_plane`. -/
def enqueuePlane (cfg : ReviewConfig) (ticketId : Str) : Process Unit :=
  if cfg.planeEnabled = false then pure ()
  else do
    match ← ask (.getTicket ticketId) with
    | none => pure ()
    | some ticket =>
      let jobId ← ask .newId
      let _ ← Program.raising (ask (.enqueueJob
        { jobId, jobType := "plane_sync", aggregateId := ticketId
          idempotencyKey := text "plane-sync:" ++ ticketId ++ text ":" ++ intText ticket.version ++
            text ":" ++ text ticket.status.value
          payload := [("ticket_id", .str ticketId)] }))
      pure ()

variable [PythonText]

/-- `reduce_ticket_effects`, which reads the manifests, the entries and the receipts. -/
def reduceProcess (ticketId : Str) : Process EffectAggregate := do
  let manifests ← ask (.listExecutionManifests ticketId)
  if manifests = [] then pure noManifestAggregate
  else do
    let entries ← ask (.listEntries ticketId)
    let receipts ← ask (.listReceipts ticketId)
    .ofExcept (reduceEffects manifests entries receipts)

/-- `AsyncChildOutcomeSink.record_terminal_child`. -/
def sinkTerminalChild (parentOperationId parentManifestHash childOperationId effectState : Str)
    (receipt : Option Fields) (reasonCode : Option Str) : Process Unit := do
  let expectationId ← ask .newId
  let receiptEntryId ← ask .newId
  let entryId ← ask .newId
  let jobId ← ask .newId
  let t : TerminalChild :=
    { parentOperationId, parentManifestHash, childOperationId, effectState, receipt, reasonCode
      expectationId, receiptEntryId, entryId, jobId }
  let keys ← .ofExcept t.keys
  let found ← ask (.getEntryByDedupe (manifestKey keys.parentId))
  let outcome ← .ofExcept (t.outcome keys found)
  let _ ← Program.raising (ask (.recordChildOutcome outcome))
  let _ ← reduceProcess outcome.ticketId
  pure ()

end Shared

end HardyAI.Tickets
