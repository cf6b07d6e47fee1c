import HardyAI.Foundation.Table
import HardyAI.Foundation.Transaction
import Mathlib.Data.List.Lex
import Mathlib.Data.List.Sort
import Mathlib.Data.Prod.Lex

/-! The store of the private notes: a row for each captured note and for the digest of each channel
and local day. -/

open Foundation

namespace HardyAI.PrivateNotes

section Rows

inductive NoteStatus
  | pending | claimed | digested
  deriving DecidableEq

/-- A row of `private_note_entries`. -/
structure Note where
  noteId : Str
  externalMessageId : Str
  ownerUserId : Str
  channelId : Str
  noteText : Str
  capturedAt : Str
  digestId : Option Str
  status : NoteStatus
  deriving DecidableEq

inductive DigestStatus
  | preparing | skipped | ready | delivering | delivered | failed | deadLetter
  deriving DecidableEq

/-- A row of `private_note_digests`. -/
structure Digest where
  digestId : Str
  channelId : Str
  localDate : Str
  status : DigestStatus
  summaryText : Option Str
  messageIds : List Str
  deliveryAttempts : Nat
  deriving DecidableEq

abbrev NoteTable := Table Note.noteId
abbrev DigestTable := Table Digest.digestId

structure NotesDb where
  notes : NoteTable
  digests : DigestTable

/-- `_digest_row` leaves out the message identifiers that are blank. -/
def Digest.discordMessageIds (d : Digest) : List Str := d.messageIds.filter fun id => strip id ≠ []

end Rows

section Operations

/-- `capture_note`: the row of the message, and whether it is new. -/
def captureNote (n : Note) (db : NotesDb) : (Option Note × Bool) × NotesDb :=
  match db.notes.insertApart? (fun old => old.externalMessageId = n.externalMessageId) n with
  | some notes => ((some n, true), { db with notes })
  | none => ((db.notes.rows.find? fun old => old.externalMessageId = n.externalMessageId, false), db)

def byCapture (a b : Note) : Bool := toLex (a.capturedAt, a.noteId) ≤ toLex (b.capturedAt, b.noteId)

/-- `SELECT … ORDER BY captured_at, note_id`. -/
def selectNotes (t : NoteTable) (g : Note → Bool) : List Note :=
  (t.rows.filter g).mergeSort byCapture

def digestOn (t : DigestTable) (channelId localDate : Str) : Option Digest :=
  t.rows.find? fun d => d.channelId = channelId && d.localDate = localDate

structure ClaimRequest where
  digestId : Str
  ownerUserId : Str
  channelId : Str
  localDate : Str
  maxNotes : Nat
  skipIfEmpty : Bool

def emptyDigestText (localDate : Str) : Str :=
  text "Evening notes - " ++ localDate ++ text "\n\nNo notes were captured today."

def newDigest (r : ClaimRequest) (notes : List Note) : Digest where
  digestId := r.digestId
  channelId := r.channelId
  localDate := r.localDate
  status := if notes ≠ [] then .preparing else if r.skipIfEmpty then .skipped else .ready
  summaryText := if notes ≠ [] then none else some (emptyDigestText r.localDate)
  messageIds := []
  deliveryAttempts := 0

def claimFor (digestId : Str) : Table.Assignment Note.noteId where
  apply n := { n with digestId := some digestId, status := .claimed }

/-- The pending notes that a claim takes. -/
def claimable (r : ClaimRequest) (t : NoteTable) : List Note :=
  (selectNotes t fun n => n.ownerUserId = r.ownerUserId && n.channelId = r.channelId &&
    n.status = .pending).take (max 1 r.maxNotes)

/-- `claim_digest`. -/
def claimDigest (r : ClaimRequest) : Transaction NotesDb (Digest × List Note) := fun db =>
  match digestOn db.digests r.channelId r.localDate with
  | some d => .ok ((d, selectNotes db.notes fun n => n.digestId = some d.digestId), db)
  | none =>
    let notes := claimable r db.notes
    match db.digests.insert? (newDigest r notes) with
    | none => .error .integrityError
    | some digests => .ok ((newDigest r notes, notes),
      { notes := db.notes.update (fun n => n.noteId ∈ notes.map Note.noteId) (claimFor r.digestId)
        digests })

def summarized (summary : Str) : Table.Assignment Digest.digestId where
  apply d := { d with summaryText := some summary, status := .ready }

/-- `save_digest_summary`. -/
def saveDigestSummary (digestId summary : Str) (db : NotesDb) : NotesDb :=
  { db with digests := db.digests.update (fun d => d.digestId = digestId) (summarized summary) }

def partSent (messageId : Str) : Table.Assignment Digest.digestId where
  apply d := { d with
    messageIds := if messageId ∈ d.discordMessageIds then d.discordMessageIds
      else d.discordMessageIds ++ [messageId]
    status := .delivering }

/-- `record_delivery_part`. -/
def recordDeliveryPart (digestId messageId : Str) (db : NotesDb) : NotesDb :=
  { db with digests := db.digests.update (fun d => d.digestId = digestId) (partSent messageId) }

def withStatus (status : DigestStatus) : Table.Assignment Digest.digestId where
  apply d := { d with status }

def withNoteStatus (status : NoteStatus) : Table.Assignment Note.noteId where
  apply n := { n with status }

/-- `mark_delivered`. -/
def markDelivered (digestId : Str) (db : NotesDb) : NotesDb where
  digests := db.digests.update (fun d => d.digestId = digestId) (withStatus .delivered)
  notes := db.notes.update (fun n => n.digestId = some digestId) (withNoteStatus .digested)

def attempted (attempts : Nat) (status : DigestStatus) : Table.Assignment Digest.digestId where
  apply d := { d with deliveryAttempts := attempts, status }

def released : Table.Assignment Note.noteId where
  apply n := { n with digestId := none, status := .pending }

/-- `mark_delivery_failed`. -/
def markDeliveryFailed (digestId : Str) (maxAttempts : Nat) (db : NotesDb) : NotesDb :=
  let attempts := ((db.digests.find? digestId).elim 0 Digest.deliveryAttempts) + 1
  let dead := max 1 maxAttempts ≤ attempts
  { digests := db.digests.update (fun d => d.digestId = digestId)
      (attempted attempts (if dead then .deadLetter else .failed))
    notes := if dead then db.notes.update (fun n => n.digestId = some digestId) released
      else db.notes }

def purgeable (ownerUserId channelId capturedBefore : Str) (n : Note) : Bool :=
  n.ownerUserId = ownerUserId && n.channelId = channelId && n.status = .digested &&
    decide (n.capturedAt < capturedBefore)

/-- `purge_digested_notes`, with the number of the notes it deletes. -/
def purgeDigestedNotes (ownerUserId channelId capturedBefore : Str) (db : NotesDb) : Nat × NotesDb :=
  (db.notes.count (purgeable ownerUserId channelId capturedBefore),
    { db with notes := db.notes.delete (purgeable ownerUserId channelId capturedBefore) })

end Operations

end HardyAI.PrivateNotes
