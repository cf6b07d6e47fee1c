import HardyAI.Foundation.Instant
import HardyAI.Foundation.Leases
import HardyAI.Foundation.Table
import Mathlib.Order.Fin.Basic

/-! The ledger of the calendar inbox: a row for each hourly slot, for each Gmail message and for
each reconciled event. -/

open Foundation

namespace HardyAI.CalendarInbox

section Rows

inductive RunDone
  | completed
  deriving DecidableEq

inductive MessageDone
  | completed | ignored
  deriving DecidableEq

structure RunCounts where
  scannedCount : Nat
  importedCount : Nat
  updatedCount : Nat
  existingCount : Nat
  ignoredCount : Nat
  failedCount : Nat
  deriving DecidableEq

def RunCounts.zero : RunCounts := ⟨0, 0, 0, 0, 0, 0⟩

structure RunResult where
  runId : Str
  slotKey : Str
  counts : RunCounts
  deriving DecidableEq

/-- An event of the provider's outcome, where a field may be absent. -/
structure ReconciledEvent where
  sourceKey : Option Str
  icalUid : Option Str
  recurrenceId : Option Str
  houseCalendarId : Option Str
  googleEventId : Option Str
  action : Option Str
  payloadHash : Option Str
  deriving DecidableEq

/-- What `reconcile_message` answers. -/
structure Outcome where
  status : Option Str
  events : List ReconciledEvent
  deriving DecidableEq

/-- A row of `calendar_inbox_runs`. -/
structure RunRow extends Lease RunDone Str where
  runId : Str
  slotKey : Str
  counts : RunCounts
  lastError : Option Str
  result : Option RunResult
  createdAt : Str
  completedAt : Option Str
  deriving DecidableEq

/-- A row of `calendar_inbox_messages`. -/
structure MessageRow extends Lease MessageDone Str where
  gmailMessageId : Str
  gmailThreadId : Option Str
  gmailInternalDate : Option Str
  runId : Str
  outcome : Option Outcome
  lastError : Option Str
  createdAt : Str
  completedAt : Option Str
  deriving DecidableEq

/-- A row of `calendar_inbox_events`. -/
structure EventRow where
  sourceKey : Str
  gmailMessageId : Str
  icalUid : Str
  recurrenceId : Option Str
  houseCalendarId : Str
  googleEventId : Option Str
  action : Str
  payloadHash : Option Str
  result : ReconciledEvent
  createdAt : Str
  updatedAt : Str
  deriving DecidableEq

structure InboxDb where
  runs : Table RunRow.runId
  messages : Table MessageRow.gmailMessageId
  events : Table EventRow.sourceKey

def InboxDb.empty : InboxDb := ⟨∅, ∅, ∅⟩

def InboxDb.updateRun (db : InboxDb) (runId : Str) (a : Table.Assignment RunRow.runId) : InboxDb :=
  { db with runs := db.runs.update (fun row => row.runId = runId) a }

def InboxDb.updateMessage (db : InboxDb) (id : Str)
    (a : Table.Assignment MessageRow.gmailMessageId) : InboxDb :=
  { db with messages := db.messages.update (fun row => row.gmailMessageId = id) a }

/-- The status of a failed row, by the attempts that were read before. -/
def failureStatus {Done : Type} (maxAttempts attempts : Int) : LeaseStatus Done :=
  if max 1 maxAttempts ≤ attempts then .deadLetter else .failed

end Rows

section Runs

/-- The answer of `claim_run`, which names the row in either case. -/
inductive RunClaim
  | granted (runId : Str) (attemptCount : Int)
  | refused (runId : Str) (reason : String)
  deriving DecidableEq

def RunClaim.runId : RunClaim → Str
  | .granted runId _ | .refused runId _ => runId

def exhaustedRun (now : Str) : Table.Assignment RunRow.runId where
  apply row := { row with toLease := row.toLease.exhaust now }

def retakenRun (now : Str) : Table.Assignment RunRow.runId where
  apply row := { row with toLease := row.toLease.retake now, lastError := none }

def completedRun (result : RunResult) (now : Str) : Table.Assignment RunRow.runId where
  apply row := { row with
    status := .done .completed, counts := result.counts, lastError := none
    result := some result, updatedAt := now, completedAt := some now }

def failedRun (status : LeaseStatus RunDone) (error now : Str) :
    Table.Assignment RunRow.runId where
  apply row := { row with status, lastError := some error, updatedAt := now }

/-- `claim_run`, with a fresh identifier for the row of a new slot. -/
def claimRun (freshId slotKey now staleBefore : Str) (maxAttempts : Int) :
    Transaction InboxDb RunClaim := fun db =>
  match db.runs.rows.find? fun row => row.slotKey = slotKey with
  | none =>
    let row : RunRow := {
      runId := freshId, slotKey, status := .held, attemptCount := 1, counts := .zero
      lastError := none, result := none, createdAt := now, updatedAt := now, completedAt := none }
    match db.runs.insert? row with
    | none => .error .integrityError
    | some runs => .ok (.granted freshId 1, { db with runs })
  | some row =>
    match row.toLease.verdict staleBefore (max 1 maxAttempts) with
    | .settled => .ok (.refused row.runId "completed", db)
    | .exhausted => .ok (.refused row.runId "max_attempts", db.updateRun row.runId (exhaustedRun now))
    | .leased => .ok (.refused row.runId "leased", db)
    | .free => .ok (.granted row.runId (row.attemptCount + 1), db.updateRun row.runId (retakenRun now))

def finishRun (runId : Str) (result : RunResult) (now : Str) (db : InboxDb) : InboxDb :=
  db.updateRun runId (completedRun result now)

/-- The first statement of `fail_run`. -/
def runAttempts (runId : Str) (db : InboxDb) : Int :=
  (db.runs.find? runId).elim 0 fun row => row.attemptCount

/-- The second statement of `fail_run`. -/
def markRunFailed (runId : Str) (status : LeaseStatus RunDone) (error now : Str) (db : InboxDb) :
    InboxDb :=
  db.updateRun runId (failedRun status (error.take 1000) now)

end Runs

section Messages

structure InboxMessageRef where
  messageId : Str
  threadId : Option Str
  deriving DecidableEq

inductive MessageClaim
  | granted (attemptCount : Int)
  | refused (reason : String)
  deriving DecidableEq

def exhaustedMessage (now : Str) : Table.Assignment MessageRow.gmailMessageId where
  apply row := { row with toLease := row.toLease.exhaust now }

def retakenMessage (runId now : Str) : Table.Assignment MessageRow.gmailMessageId where
  apply row := { row with toLease := row.toLease.retake now, runId, lastError := none }

def settledMessage (d : MessageDone) (outcome : Outcome) (now : Str) :
    Table.Assignment MessageRow.gmailMessageId where
  apply row := { row with
    status := .done d, outcome := some outcome, lastError := none, updatedAt := now
    completedAt := some now }

def failedMessage (status : LeaseStatus MessageDone) (error now : Str) :
    Table.Assignment MessageRow.gmailMessageId where
  apply row := { row with status, lastError := some error, updatedAt := now }

def settledReason : LeaseStatus MessageDone → String
  | .done .ignored => "ignored"
  | .done .completed | .held | .failed | .deadLetter => "completed"

/-- `claim_message`. The service passes no internal date. -/
def claimMessage (ref : InboxMessageRef) (runId now staleBefore : Str) (maxAttempts : Int) :
    Transaction InboxDb MessageClaim := fun db =>
  match db.messages.find? ref.messageId with
  | none =>
    let row : MessageRow := {
      gmailMessageId := ref.messageId, gmailThreadId := ref.threadId, gmailInternalDate := none
      runId, status := .held, attemptCount := 1, outcome := none, lastError := none
      createdAt := now, updatedAt := now, completedAt := none }
    match db.messages.insert? row with
    | none => .error .integrityError
    | some messages => .ok (.granted 1, { db with messages })
  | some row =>
    match row.toLease.verdict staleBefore (max 1 maxAttempts) with
    | .settled => .ok (.refused (settledReason row.status), db)
    | .exhausted =>
      .ok (.refused "max_attempts", db.updateMessage ref.messageId (exhaustedMessage now))
    | .leased => .ok (.refused "leased", db)
    | .free =>
      .ok (.granted (row.attemptCount + 1), db.updateMessage ref.messageId (retakenMessage runId now))

def finishMessage (id : Str) (outcome : Outcome) (ignored : Bool) (now : Str) (db : InboxDb) :
    InboxDb :=
  db.updateMessage id (settledMessage (if ignored then .ignored else .completed) outcome now)

/-- The first statement of `fail_message`. -/
def messageAttempts (id : Str) (db : InboxDb) : Int :=
  (db.messages.find? id).elim 0 fun row => row.attemptCount

/-- The second statement of `fail_message`. -/
def markMessageFailed (id : Str) (status : LeaseStatus MessageDone) (error now : Str)
    (db : InboxDb) : InboxDb :=
  db.updateMessage id (failedMessage status (error.take 1000) now)

end Messages

section Events

/-- The columns that `record_event` sets where the source key is known. -/
def mergedEvent (e : EventRow) : Table.Assignment EventRow.sourceKey where
  apply row := { row with
    gmailMessageId := e.gmailMessageId, googleEventId := e.googleEventId, action := e.action
    payloadHash := e.payloadHash, result := e.result, updatedAt := e.updatedAt }

def recordEvent (e : EventRow) (db : InboxDb) : InboxDb :=
  match db.events.insert? e with
  | some events => { db with events }
  | none => { db with events := db.events.update (fun row => row.sourceKey = e.sourceKey) (mergedEvent e) }

end Events

end HardyAI.CalendarInbox
