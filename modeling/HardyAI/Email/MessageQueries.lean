import HardyAI.Email.QueryNormalForm
import HardyAI.Foundation.SqlLike
import Mathlib.Data.List.Dedup

/-! `query_messages`: the `WHERE` clause that a typed query is written as, and the messages that the
query asks for. -/

open Foundation Foundation.Json

namespace HardyAI.Email

section Rows

/-- A row of `email_messages`, with its JSON columns read. -/
structure StoredMessage where
  gmailMessageId : Str
  gmailThreadId : Str
  sourceRouteKey : Str
  /-- Milliseconds since 1970. -/
  internalDate : Int
  senderName : Option Str
  senderEmail : Option Str
  recipientHeaders : List Str
  subject : Str
  snippet : Str
  /-- Nothing where the column holds no JSON. -/
  attachmentMetadata : Option Json
  canonicalBodyHash : Str

/-- A row of `email_classifications`. -/
structure Classification where
  gmailMessageId : Str
  taxonomyVersion : Str
  logicalCategoryKey : Str

def Classification.key (c : Classification) : Str × Str := (c.gmailMessageId, c.taxonomyVersion)

/-- A row of `email_summaries` of the scope `message`. -/
structure MessageSummary where
  summaryId : Str
  scopeId : Str
  sourceHash : Str
  summaryText : Str
  createdAt : Str

/-- A row of `email_message_managed_labels`. -/
structure MessageLabel where
  gmailMessageId : Str
  labelRef : Str
  isPresent : Bool

def MessageLabel.key (l : MessageLabel) : Str × Str := (l.gmailMessageId, l.labelRef)

/-- A row of `email_managed_labels`. -/
structure CatalogLabel where
  labelRef : Str
  displayName : Str
  enabled : Bool

/-- The tables that a message is shown from. -/
structure ProjectionDb where
  messages : Table StoredMessage.gmailMessageId
  classifications : Table Classification.key
  userStates : Table UserState.key
  summaries : Table MessageSummary.summaryId
  messageLabels : Table MessageLabel.key
  managedLabels : Table CatalogLabel.labelRef

/-- A row of the result. -/
structure MessageRow where
  message : StoredMessage
  logicalCategoryKey : Option Str
  summaryText : Option Str

def ProjectionDb.category (db : ProjectionDb) (taxonomyVersion : Str) (m : StoredMessage) :
    Option Str :=
  (db.classifications.find? (m.gmailMessageId, taxonomyVersion)).map
    Classification.logicalCategoryKey

/-- `ORDER BY created_at DESC LIMIT 1`. -/
def MessageSummary.latest : Option MessageSummary → MessageSummary → Option MessageSummary
  | none, s => some s
  | some best, s => if best.createdAt < s.createdAt then some s else some best

def ProjectionDb.summary (db : ProjectionDb) (m : StoredMessage) : Option Str :=
  ((db.summaries.rows.filter fun s =>
      s.scopeId = m.gmailMessageId && s.sourceHash = m.canonicalBodyHash).foldl
    MessageSummary.latest none).map MessageSummary.summaryText

def ProjectionDb.row (db : ProjectionDb) (taxonomyVersion : Str) (m : StoredMessage) : MessageRow where
  message := m
  logicalCategoryKey := db.category taxonomyVersion m
  summaryText := db.summary m

/-- The managed labels that are on the message. -/
def ProjectionDb.labelsOn (db : ProjectionDb) (m : StoredMessage) : List Str :=
  (db.messageLabels.rows.filter fun l => l.gmailMessageId = m.gmailMessageId && l.isPresent).map
    MessageLabel.labelRef

end Rows

section Queries

/-- Microseconds from the start of the year 1 to 1970. -/
def unixEpoch : Int := 719162 * 86400000000

/-- `int(value.timestamp() * 1000)`. -/
def internalDateOf (t : Instant) : Int := ((t.val : Int) - unixEpoch).tdiv 1000

/-- `json_array_length`. -/
def jsonArrayLength : Json → Nat
  | .arr items => items.length
  | .null | .bool _ | .int _ | .float _ | .str _ | .obj _ => 0

/-- A condition that is only there for a filter. -/
def clauseIf (given : Bool) (clause : Sql.Truth) : List Sql.Truth := if given then [clause] else []

/-- What `query_messages` is called with. -/
structure MessageQuery where
  query : EmailQuery
  taxonomyVersion : Str
  userId : Str
  discordChannelId : Str
  allowedSourceKeys : List Str
  allowedCategoryKeys : List Str
  selectedSourceKeys : Option (List Str)
  selectedLabelRefs : List Str
  now : Str

/-- The keys of the call that were found to be allowed. -/
structure QueryScope where
  categoryKeys : List Str
  selectedSources : List Str

variable [PythonText]

/-- `EmailQuery.text_terms`. -/
def EmailQuery.textTerms (q : EmailQuery) : List Str :=
  (((splitWords (q.text.getD [])).map PythonText.casefold).eraseDups).take 20

def allowKeys (items : List Str) : List Str :=
  ((items.filter fun item => strip item ≠ []).map folded).eraseDups

/-- The checks of `query_messages`. -/
def MessageQuery.scope (c : MessageQuery) : Except PyError QueryScope := do
  let sourceKeys := allowKeys c.allowedSourceKeys
  let categoryKeys := allowKeys c.allowedCategoryKeys
  require (sourceKeys ≠ [] && sourceKeys.length ≤ 64)
    (.valueError "Email source allowlist is invalid.")
  require (categoryKeys ≠ [] && categoryKeys.length ≤ 64)
    (.valueError "Email category allowlist is invalid.")
  let given := c.selectedSourceKeys.getD []
  let selectedSources := if given = [] then sourceKeys else given
  require (selectedSources.all (sourceKeys.contains ·)) (.valueError "Unsupported email source filter.")
  require (c.query.classification.all (categoryKeys.contains ·))
    (.valueError "Unsupported email classification filter.")
  .ok ⟨categoryKeys, selectedSources⟩

def MessageQuery.userState (c : MessageQuery) (db : ProjectionDb) (m : StoredMessage) :
    Option UserState :=
  db.userStates.find? (folded c.userId, strip c.discordChannelId, m.gmailMessageId)

/-- `LOWER(column) LIKE ? ESCAPE '\'`. -/
def columnLike (pattern : Str) (column : Option Str) : Sql.Truth :=
  Sql.compare column fun s => Sql.like (codePoint '\\') pattern (Sql.lower s)

def senderClauses (q : EmailQuery) (m : StoredMessage) : List Sql.Truth :=
  clauseIf (!q.senderAddresses.isEmpty)
    (Sql.compare m.senderEmail fun s => q.senderAddresses.contains (Sql.lower s)) ++
  clauseIf (!q.senderDomains.isEmpty)
    (Sql.compare m.senderEmail fun s =>
      q.senderDomains.contains (Sql.lower (Sql.substr s (Sql.instr s (codePoint '@') + 1)))) ++
  q.senderText.toList.map fun t =>
    let pattern := Sql.containsPattern (PythonText.casefold t)
    Sql.disj (columnLike pattern m.senderName) (columnLike pattern m.senderEmail)

omit [PythonText] in
def recipientClauses (q : EmailQuery) (m : StoredMessage) : List Sql.Truth :=
  clauseIf (!q.recipientAddresses.isEmpty)
    (some (m.recipientHeaders.any fun r => q.recipientAddresses.contains (Sql.lower r)))

omit [PythonText] in
def MessageQuery.labelClauses (c : MessageQuery) (db : ProjectionDb) (m : StoredMessage) :
    List Sql.Truth :=
  let found := (db.labelsOn m).filter (c.selectedLabelRefs.contains ·)
  clauseIf (!c.selectedLabelRefs.isEmpty)
    (match c.query.labelMatch with
      | .all => some (found.dedup.length = c.selectedLabelRefs.length)
      | .any => some (!found.isEmpty))

def textClauses (q : EmailQuery) (m : StoredMessage) : List Sql.Truth :=
  q.textTerms.map fun term =>
    let pattern := Sql.containsPattern term
    Sql.disj (Sql.disj (Sql.disj (columnLike pattern (some m.subject))
      (columnLike pattern m.senderEmail)) (columnLike pattern m.senderName))
      (columnLike pattern (some m.snippet))

omit [PythonText] in
def attachmentClauses (q : EmailQuery) (m : StoredMessage) : List Sql.Truth :=
  match q.hasAttachment with
  | none => []
  | some wanted =>
    [Sql.conj (Sql.isNotNull m.attachmentMetadata)
      (Sql.compare m.attachmentMetadata fun j =>
        if wanted then 0 < jsonArrayLength j else jsonArrayLength j = 0)]

omit [PythonText] in
def intervalClauses (q : EmailQuery) (m : StoredMessage) : List Sql.Truth :=
  match q.start, q.end_ with
  | some start, some end_ =>
    [some (internalDateOf start ≤ m.internalDate), some (m.internalDate < internalDateOf end_)]
  | _, _ => []

omit [PythonText] in
/-- The rows behind the last one of the page before. -/
def cursorClauses (q : EmailQuery) (m : StoredMessage) : List Sql.Truth :=
  match q.cursorInternalDate, q.cursorMessageId with
  | some date, some id =>
    match q.order with
    | .oldest =>
      [Sql.disj (some (date < m.internalDate))
        (Sql.conj (some (m.internalDate = date)) (some (id < m.gmailMessageId)))]
    | .newest =>
      [Sql.disj (some (m.internalDate < date))
        (Sql.conj (some (m.internalDate = date)) (some (m.gmailMessageId < id)))]
  | _, _ => []

/-- The conditions that `AND` joins. -/
def MessageQuery.clauses (c : MessageQuery) (scope : QueryScope) (db : ProjectionDb)
    (m : StoredMessage) : List Sql.Truth :=
  let category := db.category c.taxonomyVersion m
  [some (scope.selectedSources.contains m.sourceRouteKey),
    Sql.disj (Sql.isNull category) (Sql.compare category (scope.categoryKeys.contains ·))] ++
  intervalClauses c.query m ++
  [visibilityClause c.query.visibility c.now (c.userState db m) category] ++
  (c.query.classification.toList.map fun key => Sql.compare category (· = key)) ++
  senderClauses c.query m ++
  recipientClauses c.query m ++
  c.labelClauses db m ++
  textClauses c.query m ++
  attachmentClauses c.query m ++
  cursorClauses c.query m

def MessageQuery.matches (c : MessageQuery) (scope : QueryScope) (db : ProjectionDb)
    (m : StoredMessage) : Bool :=
  Sql.holds ((c.clauses scope db m).foldr Sql.conj (some true))

/-- `ORDER BY`. -/
def QueryOrder.before : QueryOrder → StoredMessage → StoredMessage → Prop
  | .oldest, a, b => a.internalDate < b.internalDate ∨
      a.internalDate = b.internalDate ∧ a.gmailMessageId ≤ b.gmailMessageId
  | .newest, a, b => b.internalDate < a.internalDate ∨
      b.internalDate = a.internalDate ∧ b.gmailMessageId ≤ a.gmailMessageId

instance (o : QueryOrder) : DecidableRel o.before := fun a b => by
  cases o <;> exact inferInstanceAs (Decidable (_ ∨ _))

def MessageQuery.pageSize (c : MessageQuery) : Nat := (min (c.query.limit + 1) 101).toNat

def MessageQuery.matching (c : MessageQuery) (scope : QueryScope) (db : ProjectionDb) :
    List StoredMessage :=
  db.messages.rows.filter (c.matches scope db)

/-- `query_messages`. -/
def queryMessages (db : ProjectionDb) (c : MessageQuery) : Except PyError (List MessageRow) := do
  let scope ← c.scope
  .ok ((((c.matching scope db).insertionSort c.query.order.before).take c.pageSize).map
    (db.row c.taxonomyVersion))

end Queries

end HardyAI.Email
