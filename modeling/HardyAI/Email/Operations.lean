import HardyAI.Email.Catalog
import HardyAI.Email.Store

/-! `EmailManagedLabelToolExecutor`: the canonical arguments of an Email operation and
the label operations that its execution queues. -/

open Foundation Foundation.Json HardyAI.Skills

namespace HardyAI.Email

section Arguments

/-- `EMAIL_PROVIDER_OPERATION_TOOLS`. -/
def operationTools : List Str :=
  providerTools ++ [text "email.get_operation", "email.set_review_state",
    "email.correct_local_category", "email.move_to_spam"]

def labelTools : List Str := ["email.apply_labels", "email.remove_labels"]

def isDigitOf (low high : Char) (c : CodePoint) : Bool :=
  (codePoint low).val ≤ c.val && c.val ≤ (codePoint high).val

/-- `E(?:[1-9]|[1-4][0-9]|50)`. -/
def isMessageRef : Str → Bool
  | [c, d] => text "E" = [c] && isDigitOf '1' '9' d
  | [c, d, d'] => text "E" = [c] && ((isDigitOf '1' '4' d && isDigitOf '0' '9' d') ||
      text "50" = [d, d'])
  | _ => false

def isLowerHex (c : CodePoint) : Bool := isDecimal c || (0x61 ≤ c.val && c.val ≤ 0x66)

/-- `_LABEL_REF`. -/
def isLabelRef (s : Str) : Bool :=
  startsWith s "label_v1_" && (s.drop 9).length = 24 && (s.drop 9).all isLowerHex

/-- `emailop_v1_([0-9a-f]{64})`. -/
def isOperationRef (s : Str) : Bool := startsWith s "emailop_v1_" && isHash (s.drop 11)

/-- `set(arguments) == {…}`. -/
def keysAre (arguments : List (Str × Json)) (keys : List Str) : Bool :=
  (arguments.all fun p => keys.contains p.1) && keys.all fun k => (lookup arguments k).isSome

def refused (code : String) : PyError := .toolContractError code

/-- A list of at least one and at most `limit` elements. -/
def boundedList (value : Option Json) (limit : Nat) (code : String) : Except PyError (List Json) :=
  match value with
  | some (.arr items) =>
    if 1 ≤ items.length ∧ items.length ≤ limit then .ok items else .error (refused code)
  | _ => .error (refused code)

variable [PythonText]

/-- `_message_refs`. -/
def messageRefs (value : Option Json) : Except PyError (List Str) := do
  let items ← boundedList value 50 "email_message_refs_invalid"
  let refs ← items.mapM fun item => (textOr (some item) []).map fun s => PythonText.upper (strip s)
  require (refs.all isMessageRef) (refused "email_message_ref_invalid")
  require refs.Nodup (refused "email_message_ref_duplicate")
  .ok refs

/-- `_label_refs`. -/
def labelRefs (value : Option Json) : Except PyError (List Str) := do
  let items ← boundedList value 10 "email_label_refs_invalid"
  let refs ← items.mapM fun item =>
    (textOr (some item) []).map fun s => PythonText.casefold (strip s)
  require (refs.all isLabelRef) (refused "email_label_ref_invalid")
  require refs.Nodup (refused "email_label_ref_duplicate")
  .ok (refs.insertionSort (· ≤ ·))

def choice (arguments : List (Str × Json)) (field : Str) (choices : List Str) (code : String) :
    Except PyError Str := do
  let chosen := PythonText.casefold (strip (← textOr (lookup arguments field) []))
  if choices.contains chosen then .ok chosen else .error (refused code)

/-- The messages a selector of `_canonical_message_ids` may denote. -/
def allowedMessageIds (db : EmailDb) (userId channelId now : Str) : List Str :=
  ((latestReferenceSet db userId channelId now).elim [] ReferenceSet.orderedMessageIds).filter
    fun id => id ≠ []

/-- The loop of `_canonical_message_ids`. -/
def canonicalTargets (db : EmailDb) (userId channelId now : Str) :
    List Json → List Str → Except PyError (List Str)
  | [], resolvedIds => .ok resolvedIds
  | raw :: rest, resolvedIds => do
    let selected := strip (← textOr (some raw) [])
    let allowed := allowedMessageIds db userId channelId now
    let messageId := if allowed.contains selected then selected
      else strip (((resolveReference db userId channelId (some selected) now).bind
        ResolvedReference.gmailMessageId).getD [])
    require (messageId ≠ [] && allowed.contains messageId) (refused "email_message_ref_stale")
    require (!resolvedIds.contains messageId) (refused "email_message_refs_duplicate_target")
    canonicalTargets db userId channelId now rest (resolvedIds ++ [messageId])

/-- `_canonical_message_ids`. -/
def canonicalMessageIds (db : EmailDb) (value : Option Json) (context : List (Str × Json))
    (now : Str) (limit : Nat) : Except PyError (List Str) := do
  let items ← boundedList value limit "email_message_refs_invalid"
  let userId := PythonText.casefold (strip (← textOr (lookup context "requested_by_user_id") []))
  let channelId := strip (← textOr (lookup context "discord_channel_id") [])
  let targets ← canonicalTargets db userId channelId now items []
  .ok (targets.insertionSort (· ≤ ·))

def texts (items : List Str) : Json := .arr (items.map .str)

/-- `EmailManagedLabelToolExecutor.canonicalize`. -/
def canonicalize (p : Permissions) (db : EmailDb) (now toolId : Str)
    (arguments context : List (Str × Json)) : Except PyError (List (Str × Json)) := do
  let toolId := PythonText.casefold (strip toolId)
  require (operationTools.contains toolId) (refused "email_tool_unsupported")
  let grant ← p.authorize context
  require grant.isSome (refused "email_tool_unauthorized")
  if toolId = text "email.get_operation" then
    require (keysAre arguments ["operation_ref"]) (refused "email_operation_ref_invalid")
    let ref := PythonText.casefold (strip (← textOr (lookup arguments "operation_ref") []))
    require (isOperationRef ref) (refused "email_operation_ref_invalid")
    .ok [("operation_ref", .str ref)]
  else if toolId = text "email.set_review_state" then
    let ids ← canonicalMessageIds db (lookup arguments "message_refs") context now 50
    require (keysAre arguments ["message_refs", "state"])
      (refused "email_review_state_arguments_invalid")
    let state ← choice arguments "state" ["reviewed", "dismissed", "actioned"]
      "email_review_state_invalid"
    .ok [("message_refs", texts ids), ("state", .str state)]
  else if toolId = text "email.correct_local_category" then
    let ids ← canonicalMessageIds db (lookup arguments "message_refs") context now 50
    require (keysAre arguments ["message_refs", "category_key"])
      (refused "email_category_arguments_invalid")
    let category ← choice arguments "category_key" p.categoryKeys "email_category_invalid"
    .ok [("message_refs", texts ids), ("category_key", .str category)]
  else if toolId = text "email.move_to_spam" then
    let ids ← canonicalMessageIds db (lookup arguments "message_refs") context now 5
    require (keysAre arguments ["message_refs"]) (refused "email_spam_arguments_invalid")
    .ok [("message_refs", texts ids)]
  else
    let refs ← messageRefs (lookup arguments "message_refs")
    if labelTools.contains toolId then
      require p.additiveLabelWritesReady (refused "email_managed_labels_not_configured")
      require (keysAre arguments ["message_refs", "label_refs"])
        (refused "email_label_arguments_invalid")
      let labels ← labelRefs (lookup arguments "label_refs")
      .ok [("message_refs", texts refs), ("label_refs", texts labels)]
    else if toolId = text "email.set_read_state" then
      require (keysAre arguments ["message_refs", "state"])
        (refused "email_read_state_arguments_invalid")
      let state ← choice arguments "state" ["read", "unread"] "email_read_state_invalid"
      .ok [("message_refs", texts refs), ("state", .str state)]
    else
      require (keysAre arguments ["message_refs"]) (refused "email_inbox_state_arguments_invalid")
      .ok [("message_refs", texts refs)]

/-- `ToolCallEnvelope.create` for the validated arguments, with the other fields given. -/
def sealEnvelope (e : ToolCallEnvelope) (arguments : List (Str × Json)) :
    Except PyError ToolCallEnvelope := do
  let identity ← toolOperationId e.rootRequestId e.toolId e.contractVersion e.callOrdinal arguments
  .ok { e with
    operationId := identity.operationId, argumentsHash := identity.argumentsHash
    arguments := identity.arguments }

end Arguments

section Replies

variable [PythonText]

/-- `_denied`. -/
def denied (reason : Str) : List (Str × Json) :=
  [("status", .str "policy_denied"),
    ("message", .str "The Email operation is unavailable in this request context."),
    ("denial_reason", .str (PythonText.casefold (strip
      (if reason = [] then text "email_operation_denied" else reason))))]

omit [PythonText] in
def needsInput (message field : Str) (candidates : List LabelRow) : List (Str × Json) :=
  [("status", .str "needs_input"), ("message", .str message),
    ("missing_fields", .arr [.str field]),
    ("payload", .obj [("operation_status", .str "not_reserved"), ("child_count", .int 0),
      ("idempotent_replay", .bool false),
      ("candidates", .arr (candidates.map fun row =>
        .obj [("label_ref", .str row.labelRef), ("display_name", .str row.displayName)]))])]

omit [PythonText] in
/-- `_to_operation_ref`. -/
def toOperationRef (operationId : Str) : Str :=
  text "emailop_v1_" ++
    if startsWith operationId "toolop_v1_" then operationId.drop 10 else operationId

omit [PythonText] in
def queued (operationId : Str) (childCount : Nat) (r : Reservation) : List (Str × Json) :=
  [("status", .str "queued"),
    ("message", .str (text "Queued " ++ natText childCount ++
      text " independent Email mailbox operation(s).")),
    ("payload", .obj [("operation_ref", .str (toOperationRef operationId)),
      ("operation_status", .str r.1.value), ("child_count", .int childCount),
      ("idempotent_replay", .bool r.2), ("candidates", .arr [])]),
    ("job_id", .str (toOperationRef operationId)), ("committed_effect", .bool false)]

end Replies

section Execution

variable [PythonText]

/-- `_operation_transition`. -/
def operationTransition (toolId : Str) (arguments : List (Str × Json)) :
    Except PyError (LabelAction × List Str) :=
  if toolId = text "email.apply_labels" then
    (labelRefs (lookup arguments "label_refs")).map (LabelAction.apply, ·)
  else if toolId = text "email.remove_labels" then
    (labelRefs (lookup arguments "label_refs")).map (LabelAction.remove, ·)
  else if toolId = text "email.set_read_state" then do
    let state ← choice arguments "state" ["read", "unread"] "email_read_state_invalid"
    .ok (if state = text "read" then .remove else .apply, [text "gmail_system_v1_unread"])
  else if toolId = text "email.archive_messages" then
    .ok (.remove, [text "gmail_system_v1_inbox"])
  else if toolId = text "email.restore_to_inbox" then
    .ok (.apply, [text "gmail_system_v1_inbox"])
  else .error (refused "email_tool_unsupported")

/-- The label references of an operation, or the reply where a managed label is unavailable. -/
def transitionLabels (p : Permissions) (toolId : Str) (labels : List Str) :
    Except PyError (List (Str × Json) ⊕ List Str) :=
  if labelTools.contains toolId then do
    match ← p.resolveLabels labels with
    | .ok refs => .ok (.inr (refs.insertionSort (· ≤ ·)))
    | .missing rows | .ambiguous rows => .ok (.inl (unavailable rows))
    | .duplicate => .ok (.inl (unavailable []))
  else .ok (.inr labels)
where
  unavailable (rows : List LabelRow) : List (Str × Json) :=
    needsInput "One or more managed labels are unavailable; load the current label catalog."
      "label_refs" rows

/-- The message that a reference denotes for the caller of an envelope. -/
def denotes (db : EmailDb) (e : ToolCallEnvelope) (now messageRef : Str) : Option Str :=
  optional (strip (((resolveReference db (PythonText.casefold (strip e.userId))
    (strip e.channelScope) (some messageRef) now).bind
    ResolvedReference.gmailMessageId).getD []))

structure ResolvedMessage where
  messageRef : Str
  gmailMessageId : Str
  deriving DecidableEq

/-- The references in their order, each looked up with a clock reading of its own. -/
def resolveMessages (db : EmailDb) (e : ToolCallEnvelope) (clock : Nat → Str) (index : Nat) :
    List Str → Option (List ResolvedMessage)
  | [] => some []
  | ref :: refs => do
    let id ← denotes db e (clock index) ref
    let rest ← resolveMessages db e clock (index + 1) refs
    some (⟨ref, id⟩ :: rest)

def childArguments (action : LabelAction) (labels : List Str) : List (Str × Json) :=
  [("action", .str action.value), ("label_refs", texts labels)]

/-- The children and their entries in the manifest. -/
def childRequests (operationId : Str) (action : LabelAction) (labels : List Str) (index : Nat) :
    List ResolvedMessage → Except PyError (List (ChildRequest × Json))
  | [] => .ok []
  | item :: items => do
    let opaqueId ← digest item.gmailMessageId
    let (childId, childHash) ← toolChildOperationId operationId index
      (text "email_message:" ++ opaqueId.take 24) (childArguments action labels)
    let rest ← childRequests operationId action labels (index + 1) items
    .ok ((⟨childId, index, item.gmailMessageId, action, labels, childHash, childId⟩,
      .obj [("child_operation_id", .str childId), ("child_index", .int index),
        ("gmail_message_id", .str item.gmailMessageId), ("message_ref", .str item.messageRef),
        ("managed_label_refs", texts labels), ("arguments_hash", .str childHash)]) :: rest)

omit [PythonText] in
/-- The attempts of an executor that is configured with `maxAttempts`. -/
def allowedAttempts (maxAttempts : Int) : Int := max 1 (min maxAttempts 10)

/-- The request to reserve an operation on the resolved messages. -/
def reserveRequest (maxAttempts : Int) (e : ToolCallEnvelope) (action : LabelAction)
    (labels : List Str) (items : List ResolvedMessage) (now : Str) :
    Except PyError ReserveRequest := do
  let children ← childRequests e.operationId action labels 1
    (items.insertionSort fun a b => a.gmailMessageId ≤ b.gmailMessageId)
  let manifest : Json := .obj [("version", .int 1), ("action", .str action.value),
    ("max_attempts", .int (allowedAttempts maxAttempts)),
    ("children", .arr (children.map Prod.snd))]
  let manifestHash ← sha256 manifest
  .ok {
    operationId := e.operationId, toolId := e.toolId
    ownerUserId := PythonText.casefold (strip e.userId), discordChannelId := strip e.channelScope
    argumentsHash := e.argumentsHash, recoveryManifest := manifest
    recoveryManifestHash := manifestHash, children := children.map Prod.fst
    now, maxAttempts := allowedAttempts maxAttempts }

def replyOfReservation (e : ToolCallEnvelope) (childCount : Nat) :
    Except PyError Reservation → Except PyError (List (Str × Json))
  | .ok r => .ok (queued e.operationId childCount r)
  | .error err => if err.isValueError then .ok (denied (text err.message)) else .error err

/-- `_queue_provider_operation` up to its reservation: a reply, or the request to reserve. -/
def planOperation (p : Permissions) (maxAttempts : Int) (clock : Nat → Str)
    (e : ToolCallEnvelope) (db : EmailDb) :
    Except PyError (List (Str × Json) ⊕ ReserveRequest) := do
  let refs ← messageRefs (lookup e.arguments "message_refs")
  let (action, labels) ← operationTransition e.toolId e.arguments
  match ← transitionLabels p e.toolId labels with
  | .inl reply => .ok (.inl reply)
  | .inr labels =>
    match resolveMessages db e clock 0 refs with
    | none => .ok (.inl (needsInput
        "One or more Email references expired; query the messages again." "message_refs" []))
    | some items =>
      if (items.map ResolvedMessage.gmailMessageId).Nodup then
        (reserveRequest maxAttempts e action labels items (clock refs.length)).map .inr
      else .ok (.inl (denied "email_message_refs_duplicate_target"))

/-- `_queue_provider_operation`. -/
def queueProviderOperation (p : Permissions) (maxAttempts : Int) (clock : Nat → Str)
    (e : ToolCallEnvelope) : Transaction EmailDb (List (Str × Json)) := fun db => do
  match ← planOperation p maxAttempts clock e db with
  | .inl reply => .ok (reply, db)
  | .inr request =>
    let reservation := reserveManagedLabelOperation request
    let reply ← replyOfReservation e request.children.length (reservation.reply db)
    .ok (reply, reservation.commit db)

/-- `_envelope_grant`. -/
def envelopeGrant (p : Permissions) (e : ToolCallEnvelope) : Except PyError (Option AccessGrant) :=
  p.authorize [("source_interface", .str e.sourceInterface), ("identity_bound", .bool true),
    ("requested_by_user_id", .str e.userId), ("discord_channel_id", .str e.channelScope),
    ("external_user_id", .str e.externalUserId), ("agent_id", .str e.agentId)]

/-- `EmailManagedLabelToolExecutor.execute`. The tools that queue no label operation leave
these tables alone and answer `other`. -/
def execute (p : Permissions) (maxAttempts : Int) (clock : Nat → Str)
    (other : Except PyError (List (Str × Json))) (e : ToolCallEnvelope) :
    Transaction EmailDb (List (Str × Json)) := fun db => do
  if e.skillId ≠ text "skill.email.agent" then .ok (denied "email_tool_envelope_invalid", db)
  else if !operationTools.contains e.toolId then .ok (denied "email_tool_unsupported", db)
  else
    match ← envelopeGrant p e with
    | none => .ok (denied "email_tool_scope_changed", db)
    | some _ =>
      if !providerTools.contains e.toolId then other.map (·, db)
      else if labelTools.contains e.toolId && !p.additiveLabelWritesReady then
        .ok (denied "email_managed_labels_not_configured", db)
      else queueProviderOperation p maxAttempts clock e db

end Execution

end HardyAI.Email
