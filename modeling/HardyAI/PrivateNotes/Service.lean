import HardyAI.Foundation.Calendar
import HardyAI.PrivateNotes.Messages
import HardyAI.PrivateNotes.Storage

/-! `PrivateNotesDigestService`: notes are captured, compiled to the digest of a local day, handed
to the delivery client and purged. -/

open Foundation

namespace HardyAI.PrivateNotes

section Configuration

structure LocalTime where
  day : Fin 3652059
  /-- Microseconds since the start of the day. -/
  time : Nat

/-- The time zones, the names of the days and the name-based identifiers. -/
class LocalClock where
  /-- `astimezone(ZoneInfo(name))`, or `none` for an `OverflowError`. -/
  localTime : Str → Instant → Option LocalTime
  /-- `strftime('%A, %B')` and the day of the month. -/
  dayTitle : Fin 3652059 → Str
  /-- `uuid5(NAMESPACE_URL, ·)`. -/
  uuid5 : Str → Str

structure PrivateNotesChannelConfig where
  guildId : Str
  channelId : Str
  deliveryChannelId : Str
  allowedUserIds : List Str
  ownerUserId : Str
  timezoneName : Str
  digestHour : Fin 24
  digestMinute : Fin 60
  skipIfEmpty : Bool
  rawNoteRetentionDays : Nat

/-- `scheduled_local`, in microseconds since the start of the day. -/
def PrivateNotesChannelConfig.scheduled (c : PrivateNotesChannelConfig) : Nat :=
  (c.digestHour.val * 60 + c.digestMinute.val) * 60000000

/-- The configured channels, by their identifiers. -/
structure Channels where
  config : Str → PrivateNotesChannelConfig
  channelId_config (channel : Str) : (config channel).channelId = channel

end Configuration

section Compiler

/-- What the compiler reads of a note. -/
structure NotePayload where
  capturedAt : Str
  text : Str
  deriving DecidableEq

def notePayload (n : Note) : NotePayload := ⟨n.capturedAt, (strip n.noteText).take 2000⟩

def joinLines : List Str → Str
  | [] => []
  | [line] => line
  | line :: rest => line ++ text "\n" ++ joinLines rest

def listedNotes (payload : List NotePayload) : Str :=
  (joinLines (text "Notes" :: ((payload.map fun p => strip p.text).filter (· ≠ [])).map
    (text "- " ++ ·))).take 9000

/-- `compile`, where the backend answers nothing, something or raises. -/
def compile (answer : Except PyError (Option Str)) (payload : List NotePayload) :
    Except PyError Str := do
  match ← answer with
  | some response => .ok (if strip response ≠ [] then (strip response).take 9000
      else listedNotes payload)
  | none => .ok (listedNotes payload)

end Compiler

section Service

def maxNotesPerDigest : Nat := 200
def maxDeliveryAttempts : Nat := 5
def maxDiscordParts : Nat := 6
def discordPartChars : Nat := 1900

/-- The store, the days on which the service has purged, and what has been given to the compiler
for a digest, the latest first. -/
structure Service where
  db : NotesDb
  retained : Str × Str → Option Str
  compiled : List (Str × List NotePayload)

inductive Captured
  | ignored (reason : Str)
  | stored (row : Option Note) (inserted : Bool)

/-- `capture_note`, with the identifier for a new row. -/
def Service.captureNote (c : PrivateNotesChannelConfig) (freshId externalMessageId author content : Str)
    (capturedAt : Instant) (s : Service) : Captured × Service :=
  if strip author ∉ c.allowedUserIds then (.ignored "author_not_allowed", s)
  else if strip externalMessageId = [] then (.ignored "missing_message_id", s)
  else if strip content = [] then (.ignored "empty_text", s)
  else
    let stored := PrivateNotes.captureNote
      { noteId := freshId
        externalMessageId := strip externalMessageId
        ownerUserId := c.ownerUserId
        channelId := c.channelId
        noteText := (strip content).take 8000
        capturedAt := isoUtc capturedAt
        digestId := none
        status := .pending } s.db
    (.stored stored.1.1 stored.1.2, { s with db := stored.2 })

variable [LocalClock]

/-- The local date and time of the channel. -/
def localNow (c : PrivateNotesChannelConfig) (now : Instant) : Except PyError LocalTime :=
  match LocalClock.localTime c.timezoneName now with
  | some t => .ok t
  | none => .error .overflowError

/-- `enforce_retention`. -/
def Service.enforceRetention (c : PrivateNotesChannelConfig) (now : Instant) :
    Transaction Service Nat := fun s => do
  let t ← localNow c now
  if s.retained (c.guildId, c.channelId) = some (isoDate t.day) then .ok (0, s)
  else
    let cutoff ← now.add (.micros (-(c.rawNoteRetentionDays * 86400000000)))
    let purged := purgeDigestedNotes c.ownerUserId c.channelId (isoUtc cutoff) s.db
    .ok (purged.1, { s with
      db := purged.2
      retained := Function.update s.retained (c.guildId, c.channelId) (some (isoDate t.day)) })

def digestName (channelId localDate : Str) : Str :=
  LocalClock.uuid5 (text "jarvis:private-notes:" ++ channelId ++ text ":" ++ localDate)

def claimRequest (c : PrivateNotesChannelConfig) (localDate : Str) : ClaimRequest where
  digestId := digestName c.channelId localDate
  ownerUserId := c.ownerUserId
  channelId := c.channelId
  localDate := localDate
  maxNotes := maxNotesPerDigest
  skipIfEmpty := c.skipIfEmpty

/-- What the delivery client is handed. -/
structure Prepared where
  digestId : Str
  deliveryChannelId : Str
  parts : List Str
  discordMessageIds : List Str
  deliveryAttempts : Nat

/-- The digest is neither delivered nor skipped nor given up. -/
def Digest.deliverable (d : Digest) : Bool :=
  d.status ≠ .delivered && d.status ≠ .skipped && d.status ≠ .deadLetter &&
    decide (d.deliveryAttempts < maxDeliveryAttempts)

def digestText (day : Fin 3652059) (body : Str) : Str :=
  strip (text "**Evening notes - " ++ LocalClock.dayTitle day ++ text "**\n\n" ++ body)

/-- The summary of a digest and its row. The notes of a digest without a summary go to the
compiler. -/
def Service.summarize (digestId : Str) (day : Fin 3652059) (answer : Except PyError (Option Str))
    (d : Digest) (notes : List Note) (s : Service) : Except PyError (Str × Option Digest) × Service :=
  if strip (d.summaryText.getD []) ≠ [] then (.ok (strip (d.summaryText.getD []), some d), s)
  else
    let payload := notes.map notePayload
    let given : Service := { s with compiled := (digestId, payload) :: s.compiled }
    match compile answer payload with
    | .error e => (.error e, given)
    | .ok body =>
      let db := saveDigestSummary digestId (digestText day body) s.db
      (.ok (digestText day body, db.digests.find? digestId), { given with db })

def preparedParts (c : PrivateNotesChannelConfig) (digestId summary : Str) (d : Option Digest) :
    Option Prepared :=
  let parts := splitDiscordMessage discordPartChars maxDiscordParts summary
  if parts = [] then none
  else some ⟨digestId, c.deliveryChannelId, parts, d.elim [] Digest.discordMessageIds,
    d.elim 0 Digest.deliveryAttempts⟩

/-- What `prepare_due_digest` does at a due time of a local day: purge, claim and compile. -/
def Service.prepareDue (c : PrivateNotesChannelConfig) (now : Instant) (day : Fin 3652059)
    (answer : Except PyError (Option Str)) (s : Service) :
    Except PyError (Option Prepared) × Service :=
  match s.enforceRetention c now with
  | .error e => (.error e, s)
  | .ok (_, kept) =>
    let digestId := digestName c.channelId (isoDate day)
    match claimDigest (claimRequest c (isoDate day)) kept.db with
    | .error e => (.error e, kept)
    | .ok ((d, notes), db) =>
      if d.deliverable then
        let summarized := Service.summarize digestId day answer d notes { kept with db }
        (summarized.1.map fun p => preparedParts c digestId p.1 p.2, summarized.2)
      else (.ok none, { kept with db })

/-- `prepare_due_digest`. -/
def Service.prepareDueDigest (c : PrivateNotesChannelConfig) (now : Instant)
    (answer : Except PyError (Option Str)) (s : Service) :
    Except PyError (Option Prepared) × Service :=
  match localNow c now with
  | .error e => (.error e, s)
  | .ok t => if t.time < c.scheduled then (.ok none, s) else s.prepareDue c now t.day answer

end Service

end HardyAI.PrivateNotes
