import HardyAI.Email.UserStates
import HardyAI.Foundation.TextForms
import HardyAI.Email.ReferenceOrder
import HardyAI.Skills.Arguments

/-! The typed Email query: its validation, and the arguments that it is written as. -/

open Foundation Foundation.Json HardyAI.Skills

namespace HardyAI.Email

section Fields

inductive QueryOrder
  | oldest | newest
  deriving DecidableEq

def QueryOrder.value : QueryOrder → Str
  | .oldest => "oldest"
  | .newest => "newest"

def QueryOrder.ofText? (s : Str) : Option QueryOrder :=
  [.oldest, .newest].find? fun o => o.value = s

inductive LabelMatch
  | any | all
  deriving DecidableEq

def LabelMatch.value : LabelMatch → Str
  | .any => "any"
  | .all => "all"

def LabelMatch.ofText? (s : Str) : Option LabelMatch :=
  [.any, .all].find? fun m => m.value = s

def Visibility.value : Visibility → Str
  | .active => "active"
  | .unseen => "unseen"
  | .needsReply => "needs_reply"
  | .completed => "completed"
  | .spam => "spam"
  | .all => "all"

/-- A member of `EMAIL_QUERY_VISIBILITIES`. -/
def Visibility.ofText? (s : Str) : Option Visibility :=
  [.active, .unseen, .needsReply, .completed, .spam, .all].find? fun v => v.value = s

def queryError (field reason : String) : PyError :=
  .valueError ("email_query_" ++ field ++ "_" ++ reason)

variable [PythonText]

/-- `str(value or "")`. -/
def rawText (value : Option Json) : Except PyError Str := textOr value []

/-- `_aware_instant` of an argument. -/
def awareInstant [DateText] (value : Option Json) (field : String) : Except PyError Instant := do
  let stripped := strip (← rawText value)
  let raw := if endsWith stripped "Z" then stripped.dropLast ++ text "+00:00" else stripped
  match DateText.readDatetime raw with
  | none => .error (queryError field "invalid")
  | some none => .error (queryError field "timezone_missing")
  | some (some micros) =>
    if h : 0 ≤ micros ∧ micros < maxMicros then
      .ok (Instant.floor ⟨micros.toNat, toNat_lt_maxMicros h⟩)
    else .error .overflowError

/-- `_compact_text`. -/
def compactText (value : Option Json) (maximum : Nat) : Except PyError (Option Str) := do
  let item := compact (← rawText value)
  if item = [] then .ok none
  else do
    require (item.length ≤ maximum) (.valueError "email_query_text_too_long")
    .ok (some item)

/-- The items of a list in their order, each in its normal form, where no two share a key. -/
def distinctItems (item : Json → Except PyError Str) (key : Str → Str) (duplicate : PyError)
    (seen : List Str) : List Json → Except PyError (List Str)
  | [] => .ok []
  | raw :: rest => do
    let value ← item raw
    require (!seen.contains (key value)) duplicate
    let values ← distinctItems item key duplicate (key value :: seen) rest
    .ok (value :: values)

/-- A list argument of at most so many items, which may be left out. -/
def listArgument (value : Option Json) (maximum : Nat) (invalid : PyError)
    (read : List Json → Except PyError (List Str)) : Except PyError (List Str) :=
  match value with
  | none | some .null => .ok []
  | some (.arr items) => if items.length ≤ maximum then read items else .error invalid
  | some _ => .error invalid

def emailItem (field : String) (raw : Json) : Except PyError Str := do
  let item := PythonText.casefold (strip (← rawText (some raw)))
  require (item ≠ [] && item.length ≤ 320 && item.head? ≠ some (codePoint '@') &&
    item.getLast? ≠ some (codePoint '@') && item.count (codePoint '@') = 1)
    (queryError field "invalid")
  .ok item

/-- `_bounded_emails`. -/
def boundedEmails (value : Option Json) (field : String) : Except PyError (List Str) :=
  listArgument value 10 (queryError field "invalid")
    (distinctItems (emailItem field) id (queryError field "duplicate") [])

def valueItem (field : String) (maximumChars : Nat) (raw : Json) : Except PyError Str := do
  let item := compact (← rawText (some raw))
  require (item ≠ [] && item.length ≤ maximumChars) (queryError field "invalid")
  .ok item

/-- `_bounded_values`. -/
def boundedValues (value : Option Json) (field : String) (maximumChars : Nat) :
    Except PyError (List Str) :=
  listArgument value 10 (queryError field "invalid")
    (distinctItems (valueItem field maximumChars) PythonText.casefold (queryError field "duplicate")
      [])

def domainItem (raw : Str) : Except PyError Str := do
  let item := (PythonText.casefold raw).dropWhile (· = codePoint '@')
  require (item ≠ [] && !item.contains (codePoint '@') && item.contains (codePoint '.') &&
    item.head? ≠ some (codePoint '.') && item.getLast? ≠ some (codePoint '.'))
    (.valueError "email_query_sender_domains_invalid")
  .ok item

/-- `_bounded_domains`. -/
def boundedDomains (value : Option Json) : Except PyError (List Str) := do
  let domains ← boundedValues value "sender_domains" 253
  domains.mapM domainItem

/-- `_allowlisted_value`. -/
def allowlistedValue (value : Option Json) (allowed : List Str) (field : String) :
    Except PyError (Option Str) := do
  let normalized := PythonText.casefold (strip (← rawText value))
  if normalized = [] then .ok none
  else do
    let allowedValues := (allowed.filter fun item => strip item ≠ []).map fun item =>
      PythonText.casefold (strip item)
    require (allowedValues.contains normalized) (queryError field "invalid")
    .ok (some normalized)

end Fields

section Query

/-- `EmailQuery` as its constructor is called. -/
structure QueryFields where
  start : Option Instant
  end_ : Option Instant
  timezoneName : Str
  mailboxRefs : List Str
  senderAddresses : List Str
  senderDomains : List Str
  senderText : Option Str
  recipientAddresses : List Str
  labelRefs : List Str
  labelMatch : Str
  classification : Option Str
  visibility : Str
  text : Option Str
  hasAttachment : Option Json
  order : Str
  limit : Option Json
  cursorInternalDate : Option Int := none
  cursorMessageId : Option Str := none

/-- `EmailQuery` after `__post_init__`. -/
structure EmailQuery where
  start : Option Instant
  end_ : Option Instant
  timezoneName : Str
  mailboxRefs : List Str
  senderAddresses : List Str
  senderDomains : List Str
  senderText : Option Str
  recipientAddresses : List Str
  labelRefs : List Str
  labelMatch : LabelMatch
  classification : Option Str
  visibility : Visibility
  text : Option Str
  hasAttachment : Option Bool
  order : QueryOrder
  limit : Int
  cursorInternalDate : Option Int
  cursorMessageId : Option Str
  deriving DecidableEq

/-- What the caller of `from_arguments` brings. -/
structure QueryContext where
  timezoneName : Str
  allowedMailboxSelectors : List Str
  allowedCategories : List Str
  /-- The names that `ZoneInfo` finds. -/
  zones : Str → Bool

/-- A value of a query as an argument of the same function. -/
def listValue (items : List Str) : Option Json := some (.arr (items.map Json.str))

def textValue (s : Option Str) : Option Json := s.map Json.str

def readLimit : Option Json → Except PyError Int
  | some (.int n) => if 1 ≤ n ∧ n ≤ 50 then .ok n else .error (queryError "limit" "invalid")
  | _ => .error (queryError "limit" "invalid")

def readAttachment : Option Json → Except PyError (Option Bool)
  | none | some .null => .ok none
  | some (.bool b) => .ok (some b)
  | some _ => .error (.valueError "email_query_attachment_filter_invalid")

def requireMember {α : Type} (value : Option α) (field : String) : Except PyError α :=
  match value with
  | some a => .ok a
  | none => .error (queryError field "invalid")

def cursorBoundaryInvalid : PyError := .valueError "email_query_cursor_boundary_invalid"

variable [PythonText]

def folded (s : Str) : Str := PythonText.casefold (strip s)

/-- `EmailQuery.__post_init__`. -/
def postInit (zones : Str → Bool) (f : QueryFields) : Except PyError EmailQuery := do
  require (f.start.isSome == f.end_.isSome) (.valueError "email_query_interval_pair_required")
  let start := f.start.map Instant.floor
  let end_ := f.end_.map Instant.floor
  let timezoneName := strip f.timezoneName
  require (zones timezoneName) (.valueError "email_query_timezone_invalid")
  require (start.all fun s => end_.all fun e => s < e)
    (.valueError "email_query_interval_reversed")
  let visibility ← requireMember (Visibility.ofText? (folded f.visibility)) "visibility"
  let order ← requireMember (QueryOrder.ofText? (folded f.order)) "order"
  let labelMatch ← requireMember (LabelMatch.ofText? (folded f.labelMatch)) "label_match"
  let limit ← readLimit f.limit
  let hasAttachment ← readAttachment f.hasAttachment
  let mailboxRefs ← boundedValues (listValue f.mailboxRefs) "mailbox_refs" 320
  let senderAddresses ← boundedEmails (listValue f.senderAddresses) "sender_addresses"
  let senderDomains ← boundedDomains (listValue f.senderDomains)
  let senderText ← compactText (textValue f.senderText) 200
  let recipientAddresses ← boundedEmails (listValue f.recipientAddresses) "recipient_addresses"
  let labelRefs ← boundedValues (listValue f.labelRefs) "label_refs" 320
  let classification := folded (f.classification.getD [])
  let text ← compactText (textValue f.text) 200
  require (f.cursorInternalDate.isSome == f.cursorMessageId.isSome) cursorBoundaryInvalid
  require (f.cursorInternalDate.all (0 ≤ ·)) cursorBoundaryInvalid
  let cursorMessageId := strip (f.cursorMessageId.getD [])
  .ok { start, end_, timezoneName, mailboxRefs, senderAddresses, senderDomains, senderText
        recipientAddresses, labelRefs, labelMatch
        classification := if classification = [] then none else some classification
        visibility, text, hasAttachment, order, limit
        cursorInternalDate := f.cursorInternalDate
        cursorMessageId := if cursorMessageId = [] then none else some cursorMessageId }

def allowedFields : List Str :=
  [text "start", text "end", text "mailbox_refs", text "sender_addresses", text "sender_domains",
    text "sender_text", text "recipient_addresses", text "label_refs", text "label_match",
    text "classification", text "visibility", text "text", text "has_attachment", text "order",
    text "limit"]

/-- `_aware_instant` of an argument that is there. -/
def givenInstant [DateText] (arguments : List (Str × Json)) (key : Str) (field : String) :
    Except PyError (Option Instant) :=
  match lookup arguments key with
  | none => .ok none
  | some value => (awareInstant (some value) field).map some

/-- `EmailQuery.from_arguments`. -/
def fromArguments [DateText] (ctx : QueryContext) (arguments : List (Str × Json)) :
    Except PyError EmailQuery := do
  require (ctx.allowedMailboxSelectors.any fun item => strip item ≠ [])
    (.valueError "email_query_mailbox_catalog_empty")
  require ((arguments.all fun p => allowedFields.contains p.1) &&
    (lookup arguments "start").isSome == (lookup arguments "end").isSome)
    (.valueError "email_query_arguments_shape_invalid")
  let start ← givenInstant arguments "start" "start"
  let end_ ← givenInstant arguments "end" "end"
  let mailboxRefs ← boundedValues (lookup arguments "mailbox_refs") "mailbox_refs" 320
  let senderAddresses ← boundedEmails (lookup arguments "sender_addresses") "sender_addresses"
  let senderDomains ← boundedDomains (lookup arguments "sender_domains")
  let senderText ← compactText (lookup arguments "sender_text") 200
  let recipientAddresses ← boundedEmails (lookup arguments "recipient_addresses")
    "recipient_addresses"
  let labelRefs ← boundedValues (lookup arguments "label_refs") "label_refs" 320
  let labelMatch ← textOr (lookup arguments "label_match") "any"
  let classification ← allowlistedValue (lookup arguments "classification") ctx.allowedCategories
    "classification"
  let visibility ← textOr (lookup arguments "visibility") "all"
  let queryText ← compactText (lookup arguments "text") 200
  let order ← textOr (lookup arguments "order") "newest"
  postInit ctx.zones {
    start, end_, timezoneName := ctx.timezoneName, mailboxRefs, senderAddresses, senderDomains
    senderText, recipientAddresses, labelRefs, labelMatch, classification, visibility
    text := queryText, hasAttachment := lookup arguments "has_attachment", order
    limit := (lookup arguments "limit").or (some (.int 20)) }

end Query

section Arguments

def optionalField (key : Str) (value : Option Json) : List (Str × Json) :=
  (value.map fun v => (key, v)).toList

def listField (key : Str) (items : List Str) : List (Str × Json) :=
  optionalField key (if items = [] then none else listValue items)

def intervalFields : Option Instant → Option Instant → List (Str × Json)
  | some start, some end_ => [("start", .str (isoUtcSeconds start)),
      ("end", .str (isoUtcSeconds end_))]
  | _, _ => []

/-- `EmailQuery.to_arguments`. -/
def EmailQuery.toArguments (q : EmailQuery) : List (Str × Json) :=
  ([("visibility", .str q.visibility.value), ("order", .str q.order.value),
    ("limit", .int q.limit)] : List (Str × Json)) ++
  intervalFields q.start q.end_ ++
  listField "mailbox_refs" q.mailboxRefs ++
  listField "sender_addresses" q.senderAddresses ++
  listField "sender_domains" q.senderDomains ++
  optionalField "sender_text" (textValue q.senderText) ++
  listField "recipient_addresses" q.recipientAddresses ++
  listField "label_refs" q.labelRefs ++
  optionalField "label_match" (if q.labelRefs = [] then none else some (.str q.labelMatch.value)) ++
  optionalField "classification" (textValue q.classification) ++
  optionalField "text" (textValue q.text) ++
  optionalField "has_attachment" (q.hasAttachment.map Json.bool)

end Arguments

section Cursors

/-- The state of a query that a cursor was written with. -/
structure CursorState where
  arguments : List (Str × Json)
  lastInternalDate : Int
  lastMessageId : Str

/-- The fields that `replace` hands to the constructor. -/
def EmailQuery.fields (q : EmailQuery) : QueryFields where
  start := q.start
  end_ := q.end_
  timezoneName := q.timezoneName
  mailboxRefs := q.mailboxRefs
  senderAddresses := q.senderAddresses
  senderDomains := q.senderDomains
  senderText := q.senderText
  recipientAddresses := q.recipientAddresses
  labelRefs := q.labelRefs
  labelMatch := q.labelMatch.value
  classification := q.classification
  visibility := q.visibility.value
  text := q.text
  hasAttachment := q.hasAttachment.map Json.bool
  order := q.order.value
  limit := some (.int q.limit)
  cursorInternalDate := q.cursorInternalDate
  cursorMessageId := q.cursorMessageId

variable [PythonText] [DateText]

/-- `_query_from_cursor`, for the state that the cursor was found with. -/
def queryFromCursor (ctx : QueryContext) (state : CursorState) : Except PyError EmailQuery := do
  let query ← fromArguments ctx state.arguments
  let lastInternalDate := if state.lastInternalDate = 0 then -1 else state.lastInternalDate
  postInit ctx.zones { query.fields with
    cursorInternalDate := some lastInternalDate, cursorMessageId := some state.lastMessageId }

end Cursors

end HardyAI.Email
