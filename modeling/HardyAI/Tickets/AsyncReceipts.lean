import HardyAI.Reviews.Service
import HardyAI.Tickets.Repository

/-! Execution manifests, the outcomes of their children, and the aggregate that they reduce to. -/

open Foundation Foundation.Json HardyAI.Jobs

namespace HardyAI.Tickets

variable [PythonText]

section Fields

/-- `str(value or "").strip()`. -/
def strippedText (value : Option Json) : Except PyError Str := (textOr value []).map strip

def idHead (c : CodePoint) : Bool :=
  (0x41 ≤ c.val && c.val ≤ 0x5A) || (0x61 ≤ c.val && c.val ≤ 0x7A) ||
    (0x30 ≤ c.val && c.val ≤ 0x39)

def idTail (c : CodePoint) : Bool := idHead c || (text "_.:/-").contains c

/-- `_OPAQUE_ID_RE`. -/
def opaqueId : Str → Bool
  | [] => false
  | c :: cs => idHead c && cs.length ≤ 255 && cs.all idTail

/-- `_HASH_RE`. -/
def hexHash (s : Str) : Bool :=
  s.length = 64 && s.all fun c => (text "0123456789abcdef").contains c

def requireHash (value : Option Json) (code : String) : Except PyError Str := do
  let normalized := PythonText.casefold (← strippedText value)
  require (hexHash normalized) (.valueError code)
  .ok normalized

def requireId (value : Option Json) (code : String) : Except PyError Str := do
  let normalized ← strippedText value
  require (opaqueId normalized) (.valueError code)
  .ok normalized

def forbiddenFieldNames : List Str :=
  [text "subject", text "snippet", text "body", text "headers", text "sender", text "recipient",
    text "recipients", text "from", text "to", text "cc", text "bcc", text "content",
    text "markdown", text "transcript", text "prompt"]

def forbiddenFieldParts : List Str :=
  [text "raw_message", text "message_body", text "email_body", text "document_text",
    text "document_body", text "note_text", text "private_note", text "credential",
    text "password", text "secret", text "access_token", text "refresh_token", text "reasoning",
    text "chain_of_thought"]

/-- `part in key`. -/
def contains (key part : Str) : Bool := key.tails.any part.isPrefixOf

def forbiddenKey (key : Str) : Bool :=
  let key := PythonText.casefold (strip key)
  forbiddenFieldNames.contains key || forbiddenFieldParts.any (contains key)

mutual

/-- `_validate_persisted_value`, with the depth that is left. -/
def validatePersisted : Nat → Json → Except PyError Unit
  | 0, _ => .error (.valueError "ticket_control_payload_depth_exceeded")
  | depth + 1, .obj fields => validatePersistedFields depth fields
  | depth + 1, .arr items =>
    if 256 < items.length then .error (.valueError "ticket_control_payload_item_limit_exceeded")
    else validatePersistedItems depth items
  | _ + 1, .str s => require (s.length ≤ 2000)
      (.valueError "ticket_control_payload_string_limit_exceeded")
  | _ + 1, .null | _ + 1, .bool _ | _ + 1, .int _ | _ + 1, .float _ => .ok ()

def validatePersistedItems (depth : Nat) : List Json → Except PyError Unit
  | [] => .ok ()
  | x :: xs => do
    validatePersisted depth x
    validatePersistedItems depth xs

def validatePersistedFields (depth : Nat) : List (Str × Json) → Except PyError Unit
  | [] => .ok ()
  | (key, x) :: xs => do
    require (!forbiddenKey key) (.valueError "ticket_control_payload_sensitive_field_forbidden")
    validatePersisted depth x
    validatePersistedFields depth xs

end

def maxPersistedBytes : Nat := 16384

/-- `_bounded_control_payload`. -/
def boundedControlPayload (payload : List (Str × Json)) : Except PyError Unit := do
  validatePersisted 9 (.obj payload)
  let encoded ← dump true (.obj payload)
  let bytes ← utf8 encoded
  require (bytes.length ≤ maxPersistedBytes) (.valueError "ticket_control_payload_size_exceeded")

/-- `set(value) == fields`. -/
def sameFields (value : List (Str × Json)) (fields : List Str) : Bool :=
  value.all (fun p => fields.contains p.1) && fields.all fun f => (lookup value f).isSome

/-- A value that has to be a mapping. -/
def objectFields (value : Json) (code : String) : Except PyError (List (Str × Json)) :=
  match value with
  | .obj fields => .ok fields
  | _ => .error (.valueError code)

/-- `isinstance(value, int) and not isinstance(value, bool)`. -/
def plainInt : Option Json → Option Int
  | some (.int n) => some n
  | _ => none

end Fields

section Manifests

inductive EffectCardinality
  | single | atomicBatch | independentBatch
  deriving DecidableEq

def EffectCardinality.value : EffectCardinality → Str
  | .single => "single"
  | .atomicBatch => "atomic_batch"
  | .independentBatch => "independent_batch"

def EffectCardinality.ofText (s : Str) : Option EffectCardinality :=
  [.single, .atomicBatch, .independentBatch].find? fun c => c.value = s

inductive Sensitivity
  | normal | isPrivate | financial | identity | highlyRestricted
  deriving DecidableEq

def Sensitivity.value : Sensitivity → Str
  | .normal => "normal"
  | .isPrivate => "private"
  | .financial => "financial"
  | .identity => "identity"
  | .highlyRestricted => "highly_restricted"

def Sensitivity.ofText (s : Str) : Option Sensitivity :=
  [.normal, .isPrivate, .financial, .identity, .highlyRestricted].find? fun c => c.value = s

inductive Persistence
  | standard | redacted | noStore
  deriving DecidableEq

def Persistence.value : Persistence → Str
  | .standard => "standard"
  | .redacted => "redacted"
  | .noStore => "no_store"

def Persistence.ofText (s : Str) : Option Persistence :=
  [.standard, .redacted, .noStore].find? fun c => c.value = s

structure ManifestChild where
  childOperationId : Str
  childIndex : Nat
  targetHash : Str
  argumentsHash : Str
  deriving DecidableEq

structure ExecutionManifest where
  parentOperationId : Str
  authorizationBindingHash : Str
  effectCardinality : EffectCardinality
  skillId : Str
  toolId : Str
  contractVersion : Int
  descriptorHash : Str
  resourceVersion : Int
  parentArgumentsHash : Str
  children : List ManifestChild
  recoveryManifestHash : Option Str
  sensitivity : Sensitivity
  persistence : Persistence
  deriving DecidableEq

omit [PythonText] in
def ManifestChild.toJson (c : ManifestChild) : Json :=
  .obj [("child_operation_id", .str c.childOperationId), ("child_index", .int c.childIndex),
    ("target_hash", .str c.targetHash), ("arguments_hash", .str c.argumentsHash)]

omit [PythonText] in
def ExecutionManifest.fields (m : ExecutionManifest) : List (Str × Json) :=
  [("schema_version", .int 1), ("parent_operation_id", .str m.parentOperationId),
    ("authorization_binding_hash", .str m.authorizationBindingHash),
    ("effect_cardinality", .str m.effectCardinality.value),
    ("expected_child_count", .int m.children.length), ("skill_id", .str m.skillId),
    ("tool_id", .str m.toolId), ("contract_version", .int m.contractVersion),
    ("descriptor_hash", .str m.descriptorHash), ("resource_version", .int m.resourceVersion),
    ("parent_arguments_hash", .str m.parentArgumentsHash),
    ("children", .arr (m.children.map ManifestChild.toJson)),
    ("recovery_manifest_hash", optionalText m.recoveryManifestHash),
    ("sensitivity", .str m.sensitivity.value), ("persistence", .str m.persistence.value)]

def manifestFields : List Str :=
  [text "schema_version", text "parent_operation_id", text "authorization_binding_hash",
    text "effect_cardinality", text "expected_child_count", text "skill_id", text "tool_id",
    text "contract_version", text "descriptor_hash", text "resource_version",
    text "parent_arguments_hash", text "children", text "recovery_manifest_hash",
    text "sensitivity", text "persistence"]

def childFields : List Str :=
  [text "child_operation_id", text "child_index", text "target_hash", text "arguments_hash"]

/-- One round of the loop over the raw children. -/
def normalizeChild (seen : List Str) (position : Nat) (raw : Json) :
    Except PyError ManifestChild := do
  let fields ← objectFields raw "tool_execution_manifest_child_shape_invalid"
  require (sameFields fields childFields)
    (.valueError "tool_execution_manifest_child_shape_invalid")
  require (plainInt (lookup fields "child_index") = some (position : Int))
    (.valueError "tool_execution_manifest_child_index_invalid")
  let childOperationId ← requireId (lookup fields "child_operation_id")
    "tool_execution_manifest_child_id_invalid"
  require (!seen.contains childOperationId)
    (.valueError "tool_execution_manifest_child_id_duplicate")
  let targetHash ← requireHash (lookup fields "target_hash")
    "tool_execution_manifest_target_hash_invalid"
  let argumentsHash ← requireHash (lookup fields "arguments_hash")
    "tool_execution_manifest_arguments_hash_invalid"
  .ok ⟨childOperationId, position, targetHash, argumentsHash⟩

def normalizeChildren (seen : List Str) (position : Nat) :
    List Json → Except PyError (List ManifestChild)
  | [] => .ok []
  | raw :: rest => do
    let child ← normalizeChild seen position raw
    let children ← normalizeChildren (child.childOperationId :: seen) (position + 1) rest
    .ok (child :: children)

def foldedText (value : Option Json) : Except PyError Str :=
  (strippedText value).map PythonText.casefold

def requireVersion (value : Option Json) (code : String) : Except PyError Int :=
  match plainInt value with
  | some n => if 1 ≤ n then .ok n else .error (.valueError code)
  | none => .error (.valueError code)

def requireSome {α : Type} (value : Option α) (code : String) : Except PyError α :=
  match value with
  | some a => .ok a
  | none => .error (.valueError code)

/-- The fields that come before the children. -/
def normalizeHeader (fields : List (Str × Json)) :
    Except PyError (EffectCardinality × Sensitivity × Persistence) := do
  require (sameFields fields manifestFields) (.valueError "tool_execution_manifest_shape_invalid")
  require ((lookup fields "schema_version").any (Reviews.Service.sameScalar · (.int 1)))
    (.valueError "tool_execution_manifest_version_invalid")
  let cardinality ← requireSome
    (EffectCardinality.ofText (← foldedText (lookup fields "effect_cardinality")))
    "tool_execution_manifest_cardinality_invalid"
  let sensitivityText ← foldedText (lookup fields "sensitivity")
  let persistenceText ← foldedText (lookup fields "persistence")
  let sensitivity ← requireSome (Sensitivity.ofText sensitivityText)
    "tool_execution_manifest_persistence_invalid"
  let persistence ← requireSome (Persistence.ofText persistenceText)
    "tool_execution_manifest_persistence_invalid"
  require (persistence ≠ .noStore) (.valueError "tool_execution_manifest_no_store_forbidden")
  .ok (cardinality, sensitivity, persistence)

def rawChildren (fields : List (Str × Json)) : Except PyError (List Json) :=
  match lookup fields "children" with
  | some (.arr (child :: children)) => .ok (child :: children)
  | _ => .error (.valueError "tool_execution_manifest_children_invalid")

def normalizeRecoveryHash (value : Option Json) : Except PyError (Option Str) :=
  match value with
  | none | some .null => .ok none
  | some v => (requireHash (some v) "tool_execution_manifest_recovery_hash_invalid").map some

/-- The manifest that a value of the right shape describes. -/
def readManifest (fields : List (Str × Json)) : Except PyError ExecutionManifest := do
  let (effectCardinality, sensitivity, persistence) ← normalizeHeader fields
  let children ← normalizeChildren [] 0 (← rawChildren fields)
  require (plainInt (lookup fields "expected_child_count") = some (children.length : Int))
    (.valueError "tool_execution_manifest_expected_count_mismatch")
  require (effectCardinality = .independentBatch || children.length = 1)
    (.valueError "tool_execution_manifest_atomic_count_invalid")
  let recoveryManifestHash ← normalizeRecoveryHash (lookup fields "recovery_manifest_hash")
  let contractVersion ← requireVersion (lookup fields "contract_version")
    "tool_execution_manifest_contract_version_invalid"
  let resourceVersion ← requireVersion (lookup fields "resource_version")
    "tool_execution_manifest_resource_version_invalid"
  let parentOperationId ← requireId (lookup fields "parent_operation_id")
    "tool_execution_manifest_parent_id_invalid"
  let authorizationBindingHash ← requireHash (lookup fields "authorization_binding_hash")
    "tool_execution_manifest_authorization_hash_invalid"
  let skillId ← requireId (lookup fields "skill_id") "tool_execution_manifest_skill_id_invalid"
  let toolId ← requireId (lookup fields "tool_id") "tool_execution_manifest_tool_id_invalid"
  let descriptorHash ← requireHash (lookup fields "descriptor_hash")
    "tool_execution_manifest_descriptor_hash_invalid"
  let parentArgumentsHash ← requireHash (lookup fields "parent_arguments_hash")
    "tool_execution_manifest_arguments_hash_invalid"
  .ok { parentOperationId, authorizationBindingHash, effectCardinality, skillId, toolId
        contractVersion, descriptorHash, resourceVersion, parentArgumentsHash, children
        recoveryManifestHash, sensitivity, persistence }

/-- `normalize_execution_manifest`. -/
def normalizeExecutionManifest : Json → Except PyError ExecutionManifest
  | .obj fields => do
    let manifest ← readManifest fields
    boundedControlPayload manifest.fields
    .ok manifest
  | _ => .error (.valueError "tool_execution_manifest_shape_invalid")

structure ReserveArgs where
  entryId : Str
  ticketId : Str
  requestId : Str
  manifest : Json
  domainReservation : Option (Except PyError DomainResult) := none

/-- `TicketEffectManifestReservation.reserve`. -/
def reserve (a : ReserveArgs) (now : Instant) : Transaction TicketDb TicketEntry := fun db => do
  let normalized ← normalizeExecutionManifest a.manifest
  let manifestHash ← contentHash (.obj normalized.fields)
  reserveExecutionManifestAtomic {
    entryId := a.entryId, ticketId := a.ticketId, requestId := a.requestId
    manifest := normalized.fields, manifestHash
    domainReservation := a.domainReservation } now db

end Manifests

section Receipts

def receiptFields : List Str :=
  [text "operation_id", text "idempotency_key", text "capability", text "action",
    text "resource_key", text "status", text "expected_effect", text "validator_name",
    text "validator_version", text "resource_locator", text "provider_resource_id",
    text "provider_revision", text "committed_at", text "execution_observation", text "result"]

def requiredReceiptFields : List Str :=
  [text "capability", text "action", text "resource_key", text "status", text "expected_effect",
    text "validator_name", text "validator_version", text "resource_locator"]

/-- `value in {None, s}`, which fails on what has no hash. -/
def absentOr (value : Option Json) (s : Str) : Except PyError Bool :=
  match value with
  | none | some .null => .ok true
  | some (.str t) => .ok (t = s)
  | some (.arr _) | some (.obj _) => .error .typeError
  | some (.bool _) | some (.int _) | some (.float _) => .ok false

/-- `dict(value or {})` of a mapping. -/
def mapping (value : Option Json) : List (Str × Json) :=
  match value with
  | some (.obj fields) => fields
  | _ => []

def isMapping : Option Json → Bool
  | none | some (.obj _) => true
  | some _ => false

/-- `str(value)`, where there is one. -/
def presentText (value : Option Json) : Except PyError (Option Str) :=
  match value with
  | none | some .null => .ok none
  | some v => (pyStr v).map some

def truthyField (fields : List (Str × Json)) (key : Str) : Bool :=
  (lookup fields key).any Json.truthy

omit [PythonText] in
def OperationReceipt.fields (r : OperationReceipt) : List (Str × Json) :=
  [("operation_id", .str r.operationId), ("idempotency_key", .str r.idempotencyKey),
    ("capability", .str r.capability), ("action", .str r.action),
    ("resource_key", .str r.resourceKey), ("status", .str r.status),
    ("expected_effect", .obj r.expectedEffect), ("validator_name", .str r.validatorName),
    ("validator_version", .str r.validatorVersion), ("resource_locator", .obj r.resourceLocator),
    ("provider_resource_id", optionalText r.providerResourceId),
    ("provider_revision", optionalText r.providerRevision),
    ("committed_at", optionalText r.committedAt),
    ("execution_observation", .obj r.executionObservation), ("result", .obj r.result)]

/-- `_normalize_receipt`. -/
def normalizeReceipt (childOperationId : Str) (fields : List (Str × Json))
    (persistence : Persistence) : Except PyError OperationReceipt := do
  require (fields.all fun p => receiptFields.contains p.1)
    (.valueError "ticket_effect_receipt_shape_invalid")
  require (requiredReceiptFields.all fun f => (lookup fields f).isSome)
    (.valueError "ticket_effect_receipt_fields_missing")
  let sameOperation ← absentOr (lookup fields "operation_id") childOperationId
  require sameOperation (.valueError "ticket_effect_receipt_operation_conflict")
  let sameKey ← absentOr (lookup fields "idempotency_key") (receiptKey childOperationId)
  require sameKey (.valueError "ticket_effect_receipt_idempotency_conflict")
  let status ← foldedText (lookup fields "status")
  require (status = text "committed") (.valueError "ticket_effect_receipt_not_committed")
  let commitTime ← strippedText (lookup fields "committed_at")
  require (commitTime ≠ []) (.valueError "ticket_effect_receipt_commit_time_required")
  require ([text "expected_effect", text "resource_locator", text "execution_observation",
    text "result"].all fun f => isMapping (lookup fields f))
    (.valueError "ticket_effect_receipt_mapping_invalid")
  require (persistence = .standard || !(truthyField fields "execution_observation" ||
    truthyField fields "result")) (.valueError "ticket_redacted_receipt_content_forbidden")
  let capability ← requireId (lookup fields "capability") "ticket_effect_receipt_capability_invalid"
  let action ← requireId (lookup fields "action") "ticket_effect_receipt_action_invalid"
  let resourceKey ← requireId (lookup fields "resource_key")
    "ticket_effect_receipt_resource_key_invalid"
  let validatorName ← requireId (lookup fields "validator_name")
    "ticket_effect_receipt_validator_invalid"
  let validatorVersion ← requireId (lookup fields "validator_version")
    "ticket_effect_receipt_validator_version_invalid"
  let providerResourceId ← presentText (lookup fields "provider_resource_id")
  let providerRevision ← presentText (lookup fields "provider_revision")
  let committedAt ← presentText (lookup fields "committed_at")
  let receipt : OperationReceipt :=
    { operationId := childOperationId, idempotencyKey := receiptKey childOperationId, capability
      action, resourceKey, status := "committed"
      expectedEffect := mapping (lookup fields "expected_effect"), validatorName, validatorVersion
      resourceLocator := mapping (lookup fields "resource_locator"), providerResourceId
      providerRevision, committedAt
      executionObservation := mapping (lookup fields "execution_observation")
      result := mapping (lookup fields "result") }
  boundedControlPayload receipt.fields
  .ok receipt

end Receipts

section Reducer

inductive ChildState
  | verified | deadLetter | cancelled | denied
  deriving DecidableEq

def ChildState.value : ChildState → Str
  | .verified => "verified"
  | .deadLetter => "dead_letter"
  | .cancelled => "cancelled"
  | .denied => "denied"

/-- A member of `_TERMINAL_CHILD_STATES`. -/
def ChildState.ofText (s : Str) : Option ChildState :=
  [.verified, .deadLetter, .cancelled, .denied].find? fun c => c.value = s

inductive AggregateStatus
  | noManifest | queued | completed | partially | failed
  deriving DecidableEq

structure EffectAggregate where
  status : AggregateStatus
  ticketStatus : Option TicketStatus
  reason : String
  expectedCount : Nat
  terminalCount : Nat
  verifiedCount : Nat
  missingChildOperationIds : List Str
  deriving DecidableEq

/-- What a manifest says of a child: its parent, the manifest's hash and the child's index. -/
structure Binding where
  parentOperationId : Str
  manifestHash : Str
  childIndex : Nat
  deriving DecidableEq

/-- A dictionary in the order of its first insertions. -/
abbrev Dict (α : Type) := List (Str × α)

def Dict.get? {α : Type} (d : Dict α) (key : Str) : Option α :=
  (d.find? fun p => p.1 = key).map Prod.snd

def bindChildren (m : ExecutionManifest) (hash : Str) :
    List ManifestChild → Dict Binding → Except PyError (Dict Binding)
  | [], expected => .ok expected
  | child :: rest, expected => do
    require (Dict.get? expected child.childOperationId).isNone
      (.valueError "ticket_manifest_child_binding_conflict")
    bindChildren m hash rest
      (expected ++ [(child.childOperationId, ⟨m.parentOperationId, hash, child.childIndex⟩)])

def expectedChildren : List TicketEntry → Dict Binding → Except PyError (Dict Binding)
  | [], expected => .ok expected
  | entry :: rest, expected => do
    let manifest ← normalizeExecutionManifest entry.structuredPayload
    let hash ← contentHash (.obj manifest.fields)
    let expected ← bindChildren manifest hash manifest.children expected
    expectedChildren rest expected

def childOutcomeFields : List Str :=
  [text "schema_version", text "parent_operation_id", text "parent_manifest_hash",
    text "child_operation_id", text "child_index", text "effect_state", text "reason_code",
    text "receipt_hash"]

def outcomeBindingInvalid : PyError := .valueError "ticket_child_outcome_binding_invalid"

/-- The outcome that an entry records, checked against the bindings. -/
def readOutcome (expected : Dict Binding) (payload : Json) : Except PyError (Str × ChildState) := do
  let fields ← objectFields payload "ticket_child_outcome_shape_invalid"
  require (sameFields fields childOutcomeFields) (.valueError "ticket_child_outcome_shape_invalid")
  let childId ← textOr (lookup fields "child_operation_id") []
  let stateText ← textOr (lookup fields "effect_state") []
  match Dict.get? expected childId, ChildState.ofText stateText with
  | some binding, some state =>
    require ((lookup fields "schema_version").any (Reviews.Service.sameScalar · (.int 1)) &&
      lookup fields "parent_operation_id" = some (.str binding.parentOperationId) &&
      lookup fields "parent_manifest_hash" = some (.str binding.manifestHash) &&
      (lookup fields "child_index").any
        (Reviews.Service.sameScalar · (.int binding.childIndex)) &&
      ((state = .verified : Bool) == truthyField fields "receipt_hash")) outcomeBindingInvalid
    .ok (childId, state)
  | _, _ => .error outcomeBindingInvalid

/-- `outcome_by_child[child_id] = state`. -/
def setOutcome (outcomes : Dict ChildState) (childId : Str) (state : ChildState) :
    Except PyError (Dict ChildState) :=
  match Dict.get? outcomes childId with
  | none => .ok (outcomes ++ [(childId, state)])
  | some old =>
    if old = state then .ok outcomes else .error (.valueError "ticket_child_outcome_conflict")

def outcomesByChild (expected : Dict Binding) :
    List TicketEntry → Dict ChildState → Except PyError (Dict ChildState)
  | [], outcomes => .ok outcomes
  | entry :: rest, outcomes =>
    if entry.entryType ≠ .childOutcome then outcomesByChild expected rest outcomes
    else do
      let (childId, state) ← readOutcome expected entry.structuredPayload
      let outcomes ← setOutcome outcomes childId state
      outcomesByChild expected rest outcomes

/-- A verified child has exactly one receipt, any other none. -/
def receiptsAgree (receipts : List ReceiptRow) (childId : Str) (state : ChildState) : Bool :=
  (receipts.filter fun r => r.operationId = childId).length = if state = .verified then 1 else 0

/-- `str` order, by code points. -/
def sortedIds (ids : List Str) : List Str := ids.insertionSort (· ≤ ·)

def aggregateOf (expected : Dict Binding) (outcomes : Dict ChildState) : EffectAggregate :=
  let missing := sortedIds ((expected.map Prod.fst).filter fun id =>
    (Dict.get? outcomes id).isNone)
  let verified := outcomes.countP fun p => p.2 = .verified
  let counted (status : AggregateStatus) (ticketStatus : TicketStatus) (reason : String) :=
    EffectAggregate.mk status (some ticketStatus) reason expected.length outcomes.length verified
      missing
  if missing ≠ [] then counted .queued .reconciliationRequired "expected_child_outcomes_missing"
  else if verified = expected.length then
    counted .completed .verificationPending "all_children_verified"
  else if verified ≠ 0 then
    counted .partially .reconciliationRequired "partial_effect_terminal"
  else counted .failed .escalated
    (if outcomes ≠ [] ∧ outcomes.all (fun p => p.2 = .cancelled) then "all_children_cancelled"
     else "no_effect_terminal")

def noManifestAggregate : EffectAggregate :=
  ⟨.noManifest, none, "execution_manifest_absent", 0, 0, 0, []⟩

/-- `reduce_ticket_effects` over the rows that it reads. -/
def reduceEffects (manifests entries : List TicketEntry) (receipts : List ReceiptRow) :
    Except PyError EffectAggregate :=
  if manifests = [] then .ok noManifestAggregate
  else do
    let expected ← expectedChildren manifests []
    let outcomes ← outcomesByChild expected entries []
    require (outcomes.all fun p => receiptsAgree receipts p.1 p.2)
      (.valueError "ticket_child_outcome_receipt_conflict")
    .ok (aggregateOf expected outcomes)

/-- `reduce_ticket_effects`. -/
def reduceTicketEffects (db : TicketDb) (ticketId : Str) : Except PyError EffectAggregate :=
  reduceEffects (db.listExecutionManifests ticketId) (db.listEntries ticketId)
    (db.listReceipts ticketId)

end Reducer

section Sink

/-- A call of the sink, with the identifiers that it generates. -/
structure TerminalChild where
  parentOperationId : Str
  parentManifestHash : Str
  childOperationId : Str
  effectState : Str
  receipt : Option (List (Str × Json)) := none
  reasonCode : Option Str := none
  expectationId : Str
  receiptEntryId : Str
  entryId : Str
  jobId : Str

def reasonHead (c : CodePoint) : Bool := 0x61 ≤ c.val && c.val ≤ 0x7A

def reasonTail (c : CodePoint) : Bool :=
  reasonHead c || (0x30 ≤ c.val && c.val ≤ 0x39) || c.val = 0x5F

/-- `[a-z][a-z0-9_]{0,63}`. -/
def isReasonCode : Str → Bool
  | [] => false
  | c :: cs => reasonHead c && cs.length ≤ 63 && cs.all reasonTail

def normalizeReason (reasonCode : Option Str) : Except PyError (Option Str) :=
  let normalized := PythonText.casefold (strip (reasonCode.getD []))
  if normalized = [] then .ok none
  else if isReasonCode normalized then .ok (some normalized)
  else .error (.valueError "ticket_child_outcome_reason_invalid")

/-- The receipt that a state asks for, normalized. -/
def outcomeReceipt (childId : Str) (state : ChildState) (persistence : Persistence)
    (receipt : Option (List (Str × Json))) : Except PyError (Option OperationReceipt) :=
  match receipt with
  | none =>
    if state = .verified then .error (.valueError "ticket_verified_child_receipt_required")
    else .ok none
  | some fields =>
    if state = .verified then (normalizeReceipt childId fields persistence).map some
    else .error (.valueError "ticket_no_effect_child_receipt_forbidden")

def receiptHashOf : Option OperationReceipt → Except PyError (Option Str)
  | none => .ok none
  | some r => (contentHash (.obj r.fields)).map some

/-- The arguments of `record_terminal_child`, checked. -/
structure TerminalKeys where
  parentId : Str
  childId : Str
  manifestHash : Str
  state : ChildState
  deriving DecidableEq

def TerminalChild.keys (t : TerminalChild) : Except PyError TerminalKeys := do
  let parentId ← requireId (some (.str t.parentOperationId)) "ticket_parent_operation_id_invalid"
  let childId ← requireId (some (.str t.childOperationId)) "ticket_child_operation_id_invalid"
  let manifestHash ← requireHash (some (.str t.parentManifestHash))
    "ticket_parent_manifest_hash_invalid"
  let state ← requireSome (ChildState.ofText (PythonText.casefold (strip t.effectState)))
    "ticket_child_outcome_state_invalid"
  .ok ⟨parentId, childId, manifestHash, state⟩

/-- What `record_terminal_child` writes for the manifest that it has found. -/
def TerminalChild.outcome (t : TerminalChild) (k : TerminalKeys) (found : Option TicketEntry) :
    Except PyError OutcomeArgs := do
  match found with
  | none => .error (.lookupError "ticket_execution_manifest_not_found")
  | some entry =>
    let manifest ← normalizeExecutionManifest entry.structuredPayload
    let storedHash ← contentHash (.obj manifest.fields)
    require (storedHash = k.manifestHash) (.valueError "ticket_parent_manifest_hash_conflict")
    let child ← requireSome (manifest.children.find? fun c => c.childOperationId = k.childId)
      "ticket_child_operation_not_in_manifest"
    let receipt ← outcomeReceipt k.childId k.state manifest.persistence t.receipt
    let reasonCode ← normalizeReason t.reasonCode
    let receiptHash ← receiptHashOf receipt
    let outcome : ChildOutcome :=
      { parentOperationId := k.parentId, parentManifestHash := k.manifestHash
        childOperationId := k.childId, childIndex := child.childIndex
        effectState := k.state.value, reasonCode, receiptHash }
    boundedControlPayload outcome.fields
    .ok { ticketId := entry.ticketId, requestId := entry.requestId, outcome, receipt
          expectationId := t.expectationId, receiptEntryId := t.receiptEntryId
          entryId := t.entryId, jobId := t.jobId }

end Sink

end HardyAI.Tickets
