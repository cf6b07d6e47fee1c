import HardyAI.Email.SyncStore
import HardyAI.Foundation.Interleaving

/-! The mailbox sync of the Email agent: pages of Gmail's history, the runs that consume them
and the recovery of an expired cursor. -/

open Foundation Foundation.Machine

namespace HardyAI.Email.Sync

section Gateway

/-- A page token as the gateway returns it. -/
structure PageToken where
  text : Str
  stripped : strip text = text
  nonempty : text ≠ []
  deriving DecidableEq

/-- `str(…).strip() or None`. -/
def PageToken.ofText (s : Str) : Option PageToken :=
  if h : strip s = [] then none else some ⟨strip s, strip_strip s, h⟩

theorem PageToken.ofText_text (t : PageToken) : PageToken.ofText t.text = some t := by
  obtain ⟨s, hstripped, hnonempty⟩ := t
  have hne : strip s ≠ [] := by rwa [hstripped]
  rw [PageToken.ofText, dif_neg hne]
  simp only [hstripped]

/-- Gmail's answer to `history().list`: the message ids of each history record. -/
structure RawHistory where
  added : List (List Str)
  historyId : Option Nat
  nextPageToken : Str

/-- `GmailHistoryPage`. -/
structure HistoryPage where
  messages : List Str
  historyId : Nat
  nextPageToken : Option PageToken
  deriving DecidableEq

def messageIds (raw : List Str) : List Str := (raw.map strip).filter fun id => id ≠ []

/-- `GoogleGmailReadOnlyGateway.list_history`, from Gmail's answer on. -/
def RawHistory.page (start : Nat) (raw : RawHistory) : HistoryPage where
  messages := (messageIds raw.added.flatten).eraseDups
  historyId := raw.historyId.getD start
  nextPageToken := PageToken.ofText raw.nextPageToken

/-- Gmail's answer to `messages().list`. -/
structure RawSearch where
  messages : List Str
  nextPageToken : Str

/-- `GmailMessagePage`. -/
structure MessagePage where
  messages : List Str
  nextPageToken : Option PageToken
  deriving DecidableEq

/-- `GoogleGmailReadOnlyGateway.search_messages`, from Gmail's answer on. -/
def RawSearch.page (raw : RawSearch) : MessagePage where
  messages := messageIds raw.messages
  nextPageToken := PageToken.ofText raw.nextPageToken

end Gateway

section Requests

/-- What `_process_message_id` answers. -/
inductive Outcome
  | accepted (summaryCount classificationCount : Nat)
  | ignored
  | failed (status : FailureStatus)
  deriving DecidableEq

def Outcome.retryRequired : Outcome → Bool
  | .failed .failed => true
  | .failed .deadLetter | .accepted _ _ | .ignored => false

inductive Op
  | getSyncState
  | profile
  | activate (now : Instant) (historyId : Nat)
  | claimSyncRun (r : ClaimRequest)
  | listHistory (start : Nat) (token : Option PageToken) (limit : Nat)
  | searchMessages (after : Instant) (token : Option PageToken) (limit : Nat)
  | currentHistoryId
  | processMessage (messageId : Str) (now activationAt : Instant) (maxAttempts : Int)
  | updateRunCounts (runId : Str) (counts : SyncCounts) (now : Instant)
  | completeSyncRun (c : Completion)
  | failSyncRun (runId errorCode : Str) (now : Instant) (maxAttempts : Int)

abbrev Op.Reply : Op → Type
  | .getSyncState => Option SyncState
  | .profile => Except PyError Nat
  | .activate _ _ => SyncState
  | .claimSyncRun _ => Except PyError Claim
  | .listHistory _ _ _ => Except PyError HistoryPage
  | .searchMessages _ _ _ => Except PyError MessagePage
  | .currentHistoryId => Except PyError Nat
  | .processMessage _ _ _ _ => Except PyError Outcome
  | .updateRunCounts _ _ _ => Unit
  | .completeSyncRun _ => Unit
  | .failSyncRun _ _ _ _ => SyncRunStatus

abbrev Process := Program Op Op.Reply

def ask (op : Op) : Process op.Reply := .perform op

end Requests

section Runs

/-- `EmailAgentRuntimeConfig`, whose constructor checks the bounds. -/
structure Config where
  maxHistoryPages : Nat
  maxMessagesPerRun : Nat
  leaseMinutes : Nat
  maxProviderAttempts : Nat
  pages_pos : 1 ≤ maxHistoryPages
  messages_pos : 1 ≤ maxMessagesPerRun

structure RunArgs where
  config : Config
  workerId : Str
  now : Instant
  runKind : RunKind
  bucketKey : Str

/-- The variables that the loop over the pages carries. -/
structure Progress where
  pageToken : Option PageToken
  latestHistoryId : Nat
  counts : SyncCounts
  blocking : Bool

def SyncCounts.add (counts : SyncCounts) : Outcome → SyncCounts
  | .accepted summaries classifications => { counts with
      acceptedCount := counts.acceptedCount + 1
      summaryCount := counts.summaryCount + summaries
      classificationCount := counts.classificationCount + classifications }
  | .ignored => { counts with ignoredCount := counts.ignoredCount + 1 }
  | .failed _ => { counts with failedCount := counts.failedCount + 1 }

def Progress.observe (l : Progress) (outcome : Outcome) : Progress :=
  { l with
    counts := SyncCounts.add l.counts outcome, blocking := l.blocking || outcome.retryRequired }

def Progress.receive (l : Progress) (refs : List Str) : Progress :=
  { l with counts := { l.counts with
      pageCount := l.counts.pageCount + 1
      candidateCount := l.counts.candidateCount + refs.length } }

/-- The loop over the messages of a page, with the exception that ends it early. -/
def processRefs (a : RunArgs) (activationAt : Instant) :
    List Str → Progress → Process (Progress × Option PyError)
  | [], l => pure (l, none)
  | ref :: refs, l => do
    match ← ask (.processMessage ref a.now activationAt a.config.maxProviderAttempts) with
    | .error e => pure (l, some e)
    | .ok outcome => processRefs a activationAt refs (l.observe outcome)

/-- One page of `_consume_history`, of which at most `remaining` messages are processed. -/
def consumePage (a : RunArgs) (state : SyncState) (runId : Str) (remaining : Nat)
    (l : Progress) : Process (Progress × Option PyError) := do
  match ← ask (.listHistory state.historyId l.pageToken remaining) with
  | .error e => pure (l, some e)
  | .ok page =>
    let refs := page.messages.take remaining
    match ← processRefs a state.activationAt refs
        { l.receive refs with latestHistoryId := page.historyId } with
    | (l, some e) => pure (l, some e)
    | (l, none) => do
      let _ ← ask (.updateRunCounts runId l.counts a.now)
      pure ({ l with pageToken := page.nextPageToken }, none)

/-- The loop of `_consume_history`. -/
def consumePages (a : RunArgs) (state : SyncState) (runId : Str) :
    Nat → Progress → Process (Progress × Option PyError)
  | 0, l => pure (l, none)
  | pages + 1, l =>
    let remaining := a.config.maxMessagesPerRun - l.counts.candidateCount
    if remaining = 0 then pure (l, none)
    else do
      match ← consumePage a state runId remaining l with
      | (l, some e) => pure (l, some e)
      | (l, none) =>
        if l.blocking || l.pageToken.isNone then pure (l, none)
        else consumePages a state runId pages l

/-- What `_run_sync` answers. -/
inductive Result
  | activated (activationAt : Instant)
  | notDue (reason : Str)
  | ok (continuationPending : Bool) (counts : SyncCounts)
  | recovered (counts : SyncCounts)
  | failed (errorType : String) (status : SyncRunStatus) (counts : SyncCounts)

/-- The token that a run starts from. -/
def readToken (state : SyncState) : Option PageToken :=
  PageToken.ofText (state.continuationToken.getD [])

/-- `_consume_history`, with the counts that its exception leaves behind. -/
def consumeHistory (a : RunArgs) (state : SyncState) (runId : Str) :
    Process (SyncCounts × Except PyError Result) := do
  match ← consumePages a state runId a.config.maxHistoryPages
      ⟨readToken state, state.historyId, .zero, false⟩ with
  | (l, some e) => pure (l.counts, .error e)
  | (l, none) =>
    if l.blocking then pure (l.counts, .error (.runtimeError "message_processing_incomplete"))
    else do
      let _ ← ask (.completeSyncRun {
        runId, counts := l.counts, now := a.now
        historyId := if l.pageToken.isSome then state.historyId else l.latestHistoryId
        continuationToken := l.pageToken.map PageToken.text, recovered := false })
      pure (l.counts, .ok (.ok l.pageToken.isSome l.counts))

/-- One page of `_recover_expired_cursor`. -/
def searchPage (a : RunArgs) (state : SyncState) (runId : Str) (baseline : Instant)
    (remaining : Nat) (l : Progress) : Process (Progress × Option PyError) := do
  match ← ask (.searchMessages baseline l.pageToken remaining) with
  | .error e => pure (l, some e)
  | .ok page =>
    let refs := page.messages.take remaining
    match ← processRefs a state.activationAt refs (l.receive refs) with
    | (l, some e) => pure (l, some e)
    | (l, none) => do
      let _ ← ask (.updateRunCounts runId l.counts a.now)
      pure ({ l with pageToken := page.nextPageToken }, none)

/-- The loop of `_recover_expired_cursor`. -/
def searchPages (a : RunArgs) (state : SyncState) (runId : Str) (baseline : Instant) :
    Nat → Progress → Process (Progress × Option PyError)
  | 0, l => pure (l, none)
  | pages + 1, l =>
    let remaining := a.config.maxMessagesPerRun - l.counts.candidateCount
    if remaining = 0 then pure (l, none)
    else do
      match ← searchPage a state runId baseline remaining l with
      | (l, some e) => pure (l, some e)
      | (l, none) =>
        if l.blocking || l.pageToken.isNone then pure (l, none)
        else searchPages a state runId baseline pages l

/-- `_recover_expired_cursor`. -/
def recoverExpiredCursor (a : RunArgs) (state : SyncState) (runId : Str) (counts : SyncCounts) :
    Process (SyncCounts × Except PyError Result) := do
  match ← searchPages a state runId (state.lastSuccessAt.getD state.activationAt)
      a.config.maxHistoryPages ⟨none, state.historyId, counts, false⟩ with
  | (l, some e) => pure (l.counts, .error e)
  | (l, none) =>
    if l.blocking then
      pure (l.counts, .error (.runtimeError "email_recovery_message_processing_incomplete"))
    else if l.pageToken.isSome then
      pure (l.counts, .error (.runtimeError "email_recovery_page_cap_reached"))
    else do
      match ← ask .currentHistoryId with
      | .error e => pure (l.counts, .error e)
      | .ok freshHistoryId => do
        let _ ← ask (.completeSyncRun {
          runId, counts := l.counts, now := a.now, historyId := freshHistoryId
          continuationToken := none, recovered := true })
        pure (l.counts, .ok (.recovered l.counts))

/-- `_fail_run`. -/
def failRun (a : RunArgs) (runId : Str) (counts : SyncCounts) (e : PyError) : Process Result := do
  let status ← ask (.failSyncRun runId (text e.className) a.now a.config.maxProviderAttempts)
  pure (.failed e.className status counts)

def minutes (n : Int) : Seconds := .micros (n * 60000000)

/-- The lease that a run asks for. -/
@[irreducible] def claimRun (a : RunArgs) : Process Claim := do
  let leaseExpiresAt ← .ofExcept (a.now.add (minutes a.config.leaseMinutes))
  let staleBefore ← .ofExcept (a.now.add (minutes (-a.config.leaseMinutes)))
  Program.raising (ask (.claimSyncRun {
    bucketKey := a.bucketKey, runKind := a.runKind, leaseOwner := a.workerId, now := a.now
    leaseExpiresAt, staleBefore, maxAttempts := a.config.maxProviderAttempts }))

/-- A claimed run: an expired cursor is recovered, other exceptions fail the run. -/
def runClaimed (a : RunArgs) (state : SyncState) (runId : Str) : Process Result := do
  match ← consumeHistory a state runId with
  | (_, .ok result) => pure result
  | (counts, .error .gmailHistoryExpired) => do
    match ← recoverExpiredCursor a state runId counts with
    | (_, .ok result) => pure result
    | (counts, .error e) => failRun a runId counts e
  | (counts, .error e) => failRun a runId counts e

/-- The first run only activates the sync. -/
def activateSync (a : RunArgs) : Process Result := do
  let historyId ← Program.raising (ask .profile)
  let state ← ask (.activate a.now historyId)
  pure (.activated state.activationAt)

/-- `_run_sync`. -/
def runSync (a : RunArgs) : Process Result := do
  match ← ask .getSyncState with
  | none => activateSync a
  | some state => do
    match ← claimRun a with
    | .refused reason => pure (.notDue reason)
    | .claimed runId _ => runClaimed a state runId

end Runs

section World

/-- The mailbox: its current history id, and the messages that were added, each with the
history id that it got. -/
structure Mailbox where
  historyId : Nat
  added : List (Str × Nat)

structure World where
  db : SyncDb
  mailbox : Mailbox

/-- How the processing of a message goes, up to what it leaves in the failure table. -/
inductive Processing
  | accepted (summaryCount classificationCount : Nat)
  | ignored
  | raised (errorType : Str)

/-- What the world contributes to a request. -/
structure Env where
  freshId : Str := []
  gmail : Option PyError := none
  history : RawHistory := ⟨[], none, []⟩
  search : RawSearch := ⟨[], []⟩
  processing : Processing := .ignored

/-- A call of Gmail that may fail. -/
def Env.gmailCall {α : Type} (env : Env) (a : α) : Except PyError α :=
  match env.gmail with
  | some e => .error e
  | none => .ok a

def World.onDb {α : Type} (w : World) (r : α × SyncDb) : α × World := (r.1, { w with db := r.2 })

/-- `_process_message_id` as the store sees it. -/
def processMessage (env : Env) (messageId : Str) (now : Instant) (maxAttempts : Int)
    (db : SyncDb) : Except PyError Outcome × SyncDb :=
  match env.processing with
  | .accepted summaries classifications =>
    (.ok (.accepted summaries classifications), clearMessageFailure messageId db)
  | .ignored => (.ok .ignored, clearMessageFailure messageId db)
  | .raised errorType =>
    let failure := recordMessageFailure messageId errorType now maxAttempts
    ((failure.reply db).map .failed, failure.commit db)

def exec (env : Env) : (op : Op) → World → op.Reply × World
  | .getSyncState, w => (w.db.state, w)
  | .profile, w => (env.gmailCall w.mailbox.historyId, w)
  | .activate now historyId, w => w.onDb (activate now historyId w.db)
  | .claimSyncRun r, w =>
    w.onDb ((claimSyncRun env.freshId r).reply w.db, (claimSyncRun env.freshId r).commit w.db)
  | .listHistory start _ _, w => (env.gmailCall (env.history.page start), w)
  | .searchMessages _ _ _, w => (env.gmailCall env.search.page, w)
  | .currentHistoryId, w => (env.gmailCall w.mailbox.historyId, w)
  | .processMessage messageId now _ maxAttempts, w =>
    w.onDb (processMessage env messageId now maxAttempts w.db)
  | .updateRunCounts runId counts now, w => w.onDb ((), updateRunCounts runId counts now w.db)
  | .completeSyncRun c, w => w.onDb ((), completeSyncRun c w.db)
  | .failSyncRun runId errorCode now maxAttempts, w =>
    w.onDb (failSyncRun runId errorCode now maxAttempts w.db)

/-- What happens to the mailbox beside the sync. Its history id grows with every change. -/
inductive Arrival
  | added (messageId : Str) (gap : Nat)
  | changed (gap : Nat)

def Mailbox.change (m : Mailbox) : Arrival → Mailbox
  | .added messageId gap =>
    ⟨m.historyId + gap + 1, m.added ++ [(messageId, m.historyId + gap + 1)]⟩
  | .changed gap => ⟨m.historyId + gap, m.added⟩

/-- Any number of processes that run the sync, over one store and one mailbox. -/
def syncMachine : Machine World Op Env Arrival Unit RunArgs Empty Op.Reply where
  exec := exec
  outside o w := ((), { w with mailbox := w.mailbox.change o })
  program a := do
    let _ ← runSync a
    pure ()
  spawns _ := none
  child := nofun

abbrev SyncEvent := Event Env Arrival RunArgs
abbrev SyncEntry := Entry Arrival Unit Op.Reply
abbrev SyncSystem := System World Arrival Unit Op.Reply

/-- The system after a run that starts before the activation, over the mailbox as it is. -/
def syncAfter (mailbox : Mailbox) (es : List SyncEvent) : SyncSystem :=
  Trace.run syncMachine.step (Machine.start ⟨.empty, mailbox⟩) es

end World

end HardyAI.Email.Sync
