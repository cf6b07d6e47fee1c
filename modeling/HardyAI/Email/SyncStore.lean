import HardyAI.Foundation.Instant
import HardyAI.Foundation.Table

/-! The sync store of the Email agent: the mailbox cursor, the sync runs with their
leases and the messages whose processing has failed. -/

open Foundation

namespace HardyAI.Email

section Tables

/-- The row of `email_sync_state`. Gmail's history ids are numbers that grow with every
change of the mailbox. -/
structure SyncState where
  activationAt : Instant
  historyId : Nat
  continuationToken : Option Str
  lastSuccessAt : Option Instant
  lastRecoveryAt : Option Instant
  updatedAt : Instant
  deriving DecidableEq

structure SyncCounts where
  pageCount : Nat
  candidateCount : Nat
  acceptedCount : Nat
  ignoredCount : Nat
  failedCount : Nat
  summaryCount : Nat
  classificationCount : Nat
  deriving DecidableEq

def SyncCounts.zero : SyncCounts := ⟨0, 0, 0, 0, 0, 0, 0⟩

inductive RunKind
  | scheduled | onDemand | recovery
  deriving DecidableEq

inductive SyncRunStatus
  | running | completed | failed | deadLetter
  deriving DecidableEq

/-- A row of `email_sync_runs`. -/
structure SyncRun where
  runId : Str
  bucketKey : Str
  runKind : RunKind
  status : SyncRunStatus
  attemptCount : Int
  leaseOwner : Option Str
  leaseExpiresAt : Option Str
  counts : SyncCounts
  lastErrorCode : Option Str
  createdAt : Str
  updatedAt : Str
  completedAt : Option Str
  deriving DecidableEq

inductive FailureStatus
  | failed | deadLetter
  deriving DecidableEq

/-- A row of `email_sync_message_failures`. -/
structure MessageFailure where
  gmailMessageId : Str
  attemptCount : Int
  status : FailureStatus
  lastErrorCode : Str
  firstFailedAt : Instant
  updatedAt : Instant
  deriving DecidableEq

structure SyncDb where
  state : Option SyncState
  runs : Table SyncRun.runId
  failures : Table MessageFailure.gmailMessageId

def SyncDb.empty : SyncDb := ⟨none, ∅, ∅⟩

end Tables

section Cursor

/-- `activate`: `INSERT OR IGNORE`, then the row that is there. -/
def activate (now : Instant) (historyId : Nat) (db : SyncDb) : SyncState × SyncDb :=
  match db.state with
  | some state => (state, db)
  | none =>
    let state : SyncState := ⟨now, historyId, none, none, none, now⟩
    (state, { db with state := some state })

end Cursor

section Runs

structure ClaimRequest where
  bucketKey : Str
  runKind : RunKind
  leaseOwner : Str
  now : Instant
  leaseExpiresAt : Instant
  staleBefore : Instant
  maxAttempts : Int

inductive Claim
  | claimed (runId : Str) (attemptCount : Int)
  | refused (reason : Str)
  deriving DecidableEq

abbrev RunAssignment := Table.Assignment SyncRun.runId

def deadLettered (now : Str) : RunAssignment where
  apply row := { row with status := .deadLetter, updatedAt := now }

def reclaimed (r : ClaimRequest) : RunAssignment where
  apply row := { row with
    status := .running, attemptCount := row.attemptCount + 1, leaseOwner := some r.leaseOwner
    leaseExpiresAt := some (isoUtc r.leaseExpiresAt), lastErrorCode := none
    updatedAt := isoUtc r.now }

def counted (counts : SyncCounts) (now : Str) : RunAssignment where
  apply row := { row with counts, updatedAt := now }

def SyncDb.updateRun (db : SyncDb) (runId : Str) (a : RunAssignment) : SyncDb :=
  { db with runs := db.runs.update (fun row => row.runId = runId) a }

/-- `claim_sync_run`, with a fresh identifier for the run. -/
def claimSyncRun (runId : Str) (r : ClaimRequest) : Transaction SyncDb Claim := fun db => do
  let now := isoUtc r.now
  match db.runs.rows.find? fun run => run.bucketKey = r.bucketKey with
  | none =>
    let row : SyncRun := {
      runId, bucketKey := r.bucketKey, runKind := r.runKind, status := .running
      attemptCount := 1, leaseOwner := some r.leaseOwner
      leaseExpiresAt := some (isoUtc r.leaseExpiresAt), counts := .zero, lastErrorCode := none
      createdAt := now, updatedAt := now, completedAt := none }
    match db.runs.insert? row with
    | none => .error .integrityError
    | some runs => .ok (.claimed runId 1, { db with runs })
  | some run =>
    if run.status = .completed then .ok (.refused "completed", db)
    else if max 1 r.maxAttempts ≤ run.attemptCount then
      if run.status = .deadLetter then .ok (.refused "max_attempts", db)
      else .ok (.refused "max_attempts", db.updateRun run.runId (deadLettered now))
    else if run.status = .running ∧ now < run.leaseExpiresAt.getD [] then
      .ok (.refused "leased", db)
    else if run.status = .running ∧ isoUtc r.staleBefore < run.updatedAt then
      .ok (.refused "leased", db)
    else .ok (.claimed run.runId (run.attemptCount + 1), db.updateRun run.runId (reclaimed r))

def updateRunCounts (runId : Str) (counts : SyncCounts) (now : Instant) (db : SyncDb) : SyncDb :=
  db.updateRun runId (counted counts (isoUtc now))

structure Completion where
  runId : Str
  counts : SyncCounts
  now : Instant
  historyId : Nat
  continuationToken : Option Str
  recovered : Bool

def completed (c : Completion) : RunAssignment where
  apply row := { row with
    status := .completed, counts := c.counts, leaseOwner := none, leaseExpiresAt := none
    lastErrorCode := none, updatedAt := isoUtc c.now, completedAt := some (isoUtc c.now) }

/-- The cursor after a completed run. -/
def SyncState.advance (c : Completion) (state : SyncState) : SyncState :=
  { state with
    historyId := c.historyId, continuationToken := c.continuationToken
    lastSuccessAt := some c.now
    lastRecoveryAt := if c.recovered then some c.now else state.lastRecoveryAt
    updatedAt := c.now }

/-- `complete_sync_run`: the run is completed and the cursor moves, whoever holds the lease. -/
def completeSyncRun (c : Completion) (db : SyncDb) : SyncDb :=
  { db.updateRun c.runId (completed c) with state := db.state.map (SyncState.advance c) }

def failedRun (status : SyncRunStatus) (errorCode now : Str) : RunAssignment where
  apply row := { row with
    status, leaseOwner := none, leaseExpiresAt := none
    lastErrorCode := some ((if errorCode = [] then text "unknown" else errorCode).take 120)
    updatedAt := now }

def failSyncRun (runId errorCode : Str) (now : Instant) (maxAttempts : Int) (db : SyncDb) :
    SyncRunStatus × SyncDb :=
  let attempts := (db.runs.find? runId).elim 0 SyncRun.attemptCount
  let status : SyncRunStatus := if max 1 maxAttempts ≤ attempts then .deadLetter else .failed
  (status, db.updateRun runId (failedRun status errorCode (isoUtc now)))

end Runs

section Failures

def failedAgain (attempts : Int) (status : FailureStatus) (code : Str) (now : Instant) :
    Table.Assignment MessageFailure.gmailMessageId where
  apply row := { row with attemptCount := attempts, status, lastErrorCode := code, updatedAt := now }

/-- `record_message_failure`. -/
def recordMessageFailure (messageId errorCode : Str) (now : Instant) (maxAttempts : Int) :
    Transaction SyncDb FailureStatus := fun db => do
  let messageId := strip messageId
  require (messageId ≠ []) (.valueError "gmail_message_id is required.")
  let code := (if errorCode = [] then text "unknown" else errorCode).take 120
  let attempts := (db.failures.find? messageId).elim 1 fun row => row.attemptCount + 1
  let status : FailureStatus := if max 1 maxAttempts ≤ attempts then .deadLetter else .failed
  match db.failures.find? messageId with
  | some _ =>
    let failures := db.failures.update (fun row => row.gmailMessageId = messageId)
      (failedAgain attempts status code now)
    .ok (status, { db with failures })
  | none =>
    match db.failures.insert? ⟨messageId, attempts, status, code, now, now⟩ with
    | none => .error .integrityError
    | some failures => .ok (status, { db with failures })

def clearMessageFailure (messageId : Str) (db : SyncDb) : SyncDb :=
  { db with failures := db.failures.delete fun row => row.gmailMessageId = messageId }

end Failures

end HardyAI.Email
