import HardyAI.CalendarInbox.Storage
import HardyAI.Foundation.Interleaving
import HardyAI.Foundation.Json

/-! `CalendarInboxService.run_due` as a program over the ledger, the inbox provider and the event
log. -/

open Foundation Foundation.Json Foundation.Program

namespace HardyAI.CalendarInbox

section Requests

/-- The local time of a configured zone. -/
structure Zone where
  name : Str
  date : Instant → Str
  hour : Instant → Fin 24

structure Config where
  zone : Zone
  startHour : Int
  endHour : Int
  maxMessagesPerRun : Nat
  lookbackDays : Nat
  allowedSenderEmails : List Str
  activationEpoch : Nat
  eventLog : Bool

def maxRunAttempts : Int := 3

def maxMessageAttempts : Int := 3

/-- `timedelta(minutes=LEASE_MINUTES)` in microseconds. -/
def leaseMicros : Int := 15 * 60000000

structure SessionRequest where
  allowedSenderEmails : List Str
  activationEpoch : Nat
  lookbackDays : Nat
  maxMessages : Nat
  defaultTimezone : Str

structure InboxSession where
  houseCalendarId : Str

inductive LogEvent
  | runStarted (runId slotKey : Str) (attemptCount : Int)
  | runCompleted (result : RunResult)
  | runFailed (runId slotKey : Str) (errorType : String) (runStatus : LeaseStatus RunDone)
      (attemptCount : Int)
  | messageFailed (runId gmailMessageId : Str) (status : LeaseStatus MessageDone)
      (attemptCount : Int) (errorType : String)
  deriving DecidableEq

def LogEvent.eventType : LogEvent → String
  | .runStarted .. => "calendar_inbox.run.started"
  | .runCompleted _ => "calendar_inbox.run.completed"
  | .runFailed .. => "calendar_inbox.run.failed"
  | .messageFailed .. => "calendar_inbox.message.failed"

/-- Requests to the ledger, where `fail_run` and `fail_message` read before they write, to the
provider and to the event log. -/
inductive Op
  | claimRun (slotKey now staleBefore : Str)
  | finishRun (runId : Str) (result : RunResult) (now : Str)
  | runAttempts (runId : Str)
  | markRunFailed (runId : Str) (status : LeaseStatus RunDone) (error now : Str)
  | claimMessage (ref : InboxMessageRef) (runId now staleBefore : Str)
  | finishMessage (id : Str) (outcome : Outcome) (ignored : Bool) (now : Str)
  | messageAttempts (id : Str)
  | markMessageFailed (id : Str) (status : LeaseStatus MessageDone) (error now : Str)
  | recordEvent (e : EventRow)
  | openSession (r : SessionRequest)
  | listCandidateMessages
  | reconcileMessage (id : Str)
  | record (event : LogEvent)

abbrev Op.Answer : Op → Type
  | .claimRun .. => RunClaim
  | .claimMessage .. => MessageClaim
  | .runAttempts _ | .messageAttempts _ => Int
  | .openSession _ => InboxSession
  | .listCandidateMessages => List InboxMessageRef
  | .reconcileMessage _ => Outcome
  | .finishRun .. | .markRunFailed .. | .finishMessage .. | .markMessageFailed .. | .recordEvent _
  | .record _ => Unit

/-- Every request may raise. -/
abbrev Op.Reply (op : Op) : Type := Except PyError op.Answer

end Requests

section Service

abbrev InboxProgram := Program Op Op.Reply

def ask (op : Op) : InboxProgram op.Answer := raising (perform op)

/-- `f"{type(exc).__name__}: {exc}"`. -/
def errorText (e : PyError) : Str := text e.className ++ text ": " ++ text e.message

def record (c : Config) (event : LogEvent) : InboxProgram Unit :=
  if c.eventLog then ask (.record event) else .pure ()

def failRun (runId error now : Str) : InboxProgram (LeaseStatus RunDone × Int) := do
  let attempts ← ask (.runAttempts runId)
  let status := failureStatus maxRunAttempts attempts
  ask (.markRunFailed runId status error now)
  return (status, attempts)

def failMessage (id error now : Str) : InboxProgram (LeaseStatus MessageDone × Int) := do
  let attempts ← ask (.messageAttempts id)
  let status := failureStatus maxMessageAttempts attempts
  ask (.markMessageFailed id status error now)
  return (status, attempts)

/-- `str(value or "").strip() or None`. -/
def stripped? (value : Option Str) : Option Str :=
  match strip (value.getD []) with
  | [] => none
  | c :: cs => some (c :: cs)

def eventAction (event : ReconciledEvent) : Str :=
  match event.action with
  | none | some [] => "ignored"
  | some (c :: cs) => c :: cs

def eventRow (session : InboxSession) (messageId now : Str) (event : ReconciledEvent) : EventRow where
  sourceKey := event.sourceKey.getD []
  gmailMessageId := messageId
  icalUid := event.icalUid.getD []
  recurrenceId := stripped? event.recurrenceId
  houseCalendarId := match event.houseCalendarId with
    | none | some [] => session.houseCalendarId
    | some (c :: cs) => c :: cs
  googleEventId := stripped? event.googleEventId
  action := eventAction event
  payloadHash := stripped? event.payloadHash
  result := event
  createdAt := now
  updatedAt := now

/-- The counter that a recorded event raises. -/
def RunCounts.count (c : RunCounts) (action : Str) : RunCounts :=
  if action = text "imported" then { c with importedCount := c.importedCount + 1 }
  else if action = text "updated" ∨ action = text "cancelled" then
    { c with updatedCount := c.updatedCount + 1 }
  else if action = text "existing_on_house" then { c with existingCount := c.existingCount + 1 }
  else { c with ignoredCount := c.ignoredCount + 1 }

/-- The events up to the first that cannot be recorded; those before it stay counted. -/
def recordEvents (session : InboxSession) (messageId now : Str) :
    List ReconciledEvent → RunCounts → InboxProgram (RunCounts × Option PyError)
  | [], counts => .pure (counts, none)
  | event :: events, counts => .request (.recordEvent (eventRow session messageId now event)) fun
    | .error e => .pure (counts, some e)
    | .ok () => recordEvents session messageId now events (counts.count (eventAction event))

variable [PythonText]

/-- The body of the `try` in `_process_message`, with the exception it ends with. -/
def reconcile (session : InboxSession) (messageId now : Str) (counts : RunCounts) :
    InboxProgram (RunCounts × Option PyError) :=
  .request (.reconcileMessage messageId) fun
    | .error e => .pure (counts, some e)
    | .ok outcome => do
      let ignored := decide (PythonText.casefold (outcome.status.getD []) = text "ignored")
      let (counts, raised) ← recordEvents session messageId now outcome.events counts
      match raised with
      | some e => .pure (counts, some e)
      | none =>
        let counts := if ignored then { counts with ignoredCount := counts.ignoredCount + 1 }
          else counts
        .request (.finishMessage messageId outcome ignored now) fun
          | .error e => .pure (counts, some e)
          | .ok () => .pure (counts, none)

/-- The `except` of `_process_message`. -/
def afterFailure (c : Config) (messageId runId now : Str) (e : PyError) : InboxProgram Unit := do
  let (status, attempts) ← failMessage messageId (errorText e) now
  record c (.messageFailed runId messageId status attempts e.className)

/-- `_process_message`. -/
def processMessage (c : Config) (session : InboxSession) (runId now staleBefore : Str)
    (ref : InboxMessageRef) (counts : RunCounts) : InboxProgram RunCounts := do
  let claim ← ask (.claimMessage ref runId now staleBefore)
  match claim with
  | .refused _ => .pure counts
  | .granted _ =>
    let (counts, raised) ← reconcile session ref.messageId now counts
    match raised with
    | none => .pure counts
    | some e =>
      afterFailure c ref.messageId runId now e
      .pure { counts with failedCount := counts.failedCount + 1 }

def processMessages (c : Config) (session : InboxSession) (runId now staleBefore : Str) :
    List InboxMessageRef → RunCounts → InboxProgram RunCounts
  | [], counts => .pure counts
  | ref :: refs, counts => do
    let counts ← processMessage c session runId now staleBefore ref counts
    processMessages c session runId now staleBefore refs counts

inductive RunReport
  | ok (result : RunResult)
  | error (runId slotKey : Str) (errorType : String) (runStatus : LeaseStatus RunDone)
      (attemptCount : Int)

def sessionRequest (c : Config) : SessionRequest where
  allowedSenderEmails := c.allowedSenderEmails
  activationEpoch := c.activationEpoch
  lookbackDays := c.lookbackDays
  maxMessages := c.maxMessagesPerRun
  defaultTimezone := c.zone.name

/-- The body of the `try` in `run_due`. -/
def scan (c : Config) (runId slotKey now staleBefore : Str) : InboxProgram RunReport := do
  let session ← ask (.openSession (sessionRequest c))
  let candidates ← ask .listCandidateMessages
  let refs := candidates.take c.maxMessagesPerRun
  let counts ← processMessages c session runId now staleBefore refs
    { RunCounts.zero with scannedCount := refs.length }
  let result : RunResult := ⟨runId, slotKey, counts⟩
  ask (.finishRun runId result now)
  record c (.runCompleted result)
  return .ok result

/-- The `except` of `run_due`. -/
def failed (c : Config) (runId slotKey now : Str) (e : PyError) : InboxProgram RunReport := do
  let (status, attempts) ← failRun runId (errorText e) now
  record c (.runFailed runId slotKey e.className status attempts)
  return .error runId slotKey e.className status attempts

/-- The slot of an hour: `f"{date}T{hour:02d}@{timezone}"`. -/
def slotKey (c : Config) (now : Instant) : Str :=
  c.zone.date now ++ text "T" ++ padded 2 (c.zone.hour now).val ++ text "@" ++ c.zone.name

/-- `run_due`. -/
def runDue (c : Config) (now : Instant) : InboxProgram (Option RunReport) :=
  if ¬ (c.startHour ≤ (c.zone.hour now).val ∧ ((c.zone.hour now).val : Int) ≤ c.endHour) then
    .pure none
  else do
    let stale ← ofExcept (now.add (.micros (-leaseMicros)))
    let slot := slotKey c now
    let claim ← ask (.claimRun slot (isoUtc now) (isoUtc stale))
    match claim with
    | .refused _ _ => .pure none
    | .granted runId attempts =>
      record c (.runStarted runId slot attempts)
      let report ← (scan c runId slot (isoUtc now) (isoUtc stale)).handle
        (failed c runId slot (isoUtc now))
      return some report

end Service

section System

/-- What the requests of a step meet: the exception a request raises before it does anything, the
identifier of a new run, and the answers of the provider. -/
structure Env where
  raises : Option PyError
  freshId : Str
  session : InboxSession
  candidates : List InboxMessageRef
  outcome : Outcome

def respond {α : Type} (env : Env) (a : α) (s s' : InboxDb) : Except PyError α × InboxDb :=
  match env.raises with
  | some e => (.error e, s)
  | none => (.ok a, s')

/-- A request that may raise by itself, without an effect. -/
def respondTo {α : Type} (env : Env) (t : Transaction InboxDb α) (s : InboxDb) :
    Except PyError α × InboxDb :=
  match env.raises with
  | some e => (.error e, s)
  | none => (t.reply s, t.commit s)

def exec (env : Env) : (op : Op) → InboxDb → op.Reply × InboxDb
  | .claimRun slotKey now staleBefore, s =>
    respondTo env (claimRun env.freshId slotKey now staleBefore maxRunAttempts) s
  | .finishRun runId result now, s => respond env () s (finishRun runId result now s)
  | .runAttempts runId, s => respond env (runAttempts runId s) s s
  | .markRunFailed runId status error now, s =>
    respond env () s (markRunFailed runId status error now s)
  | .claimMessage ref runId now staleBefore, s =>
    respondTo env (claimMessage ref runId now staleBefore maxMessageAttempts) s
  | .finishMessage id outcome ignored now, s =>
    respond env () s (finishMessage id outcome ignored now s)
  | .messageAttempts id, s => respond env (messageAttempts id s) s s
  | .markMessageFailed id status error now, s =>
    respond env () s (markMessageFailed id status error now s)
  | .recordEvent e, s => respond env () s (recordEvent e s)
  | .openSession _, s => respond env env.session s s
  | .listCandidateMessages, s => respond env env.candidates s s
  | .reconcileMessage _, s => respond env env.outcome s s
  | .record _, s => respond env () s s

/-- A call of `run_due`: the configuration of its process and the time it starts at. -/
structure Call where
  config : Config
  now : Instant

variable [PythonText]

/-- Calls of any processes over one ledger. A process that crashes is never stepped again. -/
def inboxMachine : Machine InboxDb Op Env Empty Unit Call Empty Op.Reply where
  exec := exec
  outside := nofun
  program call := (runDue call.config call.now).bind fun _ => .pure ()
  spawns _ := none
  child := nofun

abbrev Event := Machine.Event Env Empty Call
abbrev System := Machine.System InboxDb Empty Unit Op.Reply

def systemAfter (es : List Event) : System :=
  Trace.run inboxMachine.step (Machine.start InboxDb.empty) es

theorem systemAfter_concat (es : List Event) (e : Event) :
    systemAfter (es ++ [e]) = inboxMachine.step (systemAfter es) e :=
  Trace.run_concat ..

end System

end HardyAI.CalendarInbox
