import HardyAI.Skills.Arguments

/-! The preparation of a typed tool call: its arguments, the order of its targets and its
envelope. -/

open Foundation Foundation.Json

namespace HardyAI.Skills

section Refusals

/-- Why no call is prepared: a reply that denies it, or an exception. -/
inductive Refusal
  | denied (reason : Str)
  | raised (e : PyError)
  deriving DecidableEq

def allow (holds : Bool) (reason : String) : Except Refusal Unit :=
  if holds then .ok () else .error (.denied reason)

def found {α : Type} (x : Option α) (reason : String) : Except Refusal α :=
  match x with
  | some a => .ok a
  | none => .error (.denied reason)

variable {α : Type} (x : Except PyError α)

def raising : Except Refusal α :=
  match x with
  | .ok a => .ok a
  | .error e => .error (.raised e)

/-- `except ToolContractError`. -/
def deniedByContract : Except Refusal α :=
  match x with
  | .ok a => .ok a
  | .error (.toolContractError code) => .error (.denied code)
  | .error e => .error (.raised e)

/-- `except (ToolContractError, TypeError, ValueError)`. -/
def deniedByArguments : Except Refusal α :=
  match x with
  | .ok a => .ok a
  | .error (.toolContractError code) => .error (.denied code)
  | .error e =>
    if e = .typeError || e.isValueError then .error (.denied "tool_arguments_invalid")
    else .error (.raised e)

end Refusals

section Targets

/-- The required array properties of a schema that the arguments fill with lists. -/
def targetFields (d : ToolDescriptor) (arguments : List (Str × Json)) : Option (List Str) :=
  match lookup (entriesOf d.inputSchema) "properties", lookup (entriesOf d.inputSchema) "required" with
  | some (.obj properties), some (.arr required) =>
    some ((properties.filter fun p => required.contains (.str p.1) &&
      (match p.2 with | .obj child => lookup child "type" = some (.str "array") | _ => false) &&
      (lookup arguments p.1).any fun v => match v with | .arr _ => true | _ => false).map Prod.fst)
  | _, _ => none

variable [PythonText]

/-- The targets in the order of their canonical texts. -/
def orderTargets (targets : List Json) : Except PyError (List Json) := do
  let canonical ← targets.mapM canonicalJson
  require canonical.Nodup (.toolContractError "independent_batch_target_duplicate")
  .ok (((canonical.zip targets).insertionSort fun p q => p.1 ≤ q.1).map Prod.snd)

variable [DateText]

/-- `_canonicalize_independent_batch_targets`. -/
def canonicalizeIndependentBatchTargets (d : ToolDescriptor) (arguments : List (Str × Json)) :
    Except PyError (List (Str × Json)) :=
  if d.effectCardinality ≠ .independentBatch then .ok arguments
  else
    match targetFields d arguments with
    | some (targetField :: _) => do
      let ordered ← orderTargets
        (match lookup arguments targetField with | some (.arr items) => items | _ => [])
      d.validateArguments (.obj (setField arguments targetField (.arr ordered)))
    | _ => .error (.toolContractError "independent_batch_target_contract_invalid")

end Targets

section Resolution

variable [PythonText]

/-- `canonicalize_tool_arguments` of a domain handler: its error is
`ToolArgumentCanonicalizationError` with a code, or another. -/
abbrev Canonicalizer := List (Str × Json) → Except (Option String) Json

/-- `SkillExecutionDispatcher.canonicalize_tool_arguments`, of a handler that leaves its arguments
as they are. -/
def canonicalizeToolArguments (skillId : Str) (handler : Option Canonicalizer)
    (d : ToolDescriptor) (arguments : List (Str × Json)) : Except PyError (List (Str × Json)) := do
  require (skillId = d.skillId) (.toolContractError "canonicalizer_skill_mismatch")
  match handler with
  | none => .ok arguments
  | some canonicalizer => do
    let _ ← canonicalJson (.obj arguments)
    match canonicalizer arguments with
    | .error (some code) => .error (.toolContractError code)
    | .error none => .error (.toolContractError "argument_canonicalization_failed")
    | .ok (.obj result) =>
      match canonicalJson (.obj result) with
      | .ok _ => .ok result
      | .error (.toolContractError _) =>
        .error (.toolContractError "canonicalizer_result_invalid")
      | .error e => .error e
    | .ok _ => .error (.toolContractError "canonicalizer_result_invalid")

end Resolution

section Envelopes

variable [PythonText]

/-- A text of the envelope: not empty, of one line, and not long. -/
def envelopeText (value : Str) (code : String) : Except PyError Str := do
  require (strip value ≠ [] ∧ (strip value).length ≤ 255 ∧ newline ∉ strip value)
    (.toolContractError code)
  .ok (strip value)

/-- `ToolCallEnvelope.__post_init__`. -/
def postInitEnvelope (e : ToolCallEnvelope) : Except PyError ToolCallEnvelope := do
  let rootRequestId ← envelopeText e.rootRequestId "envelope_root_request_id_invalid"
  let sessionId ← envelopeText e.sessionId "envelope_session_id_invalid"
  let principalKind ← envelopeText e.principalKind "envelope_principal_kind_invalid"
  let principalSubject ← envelopeText e.principalSubject "envelope_principal_subject_invalid"
  let externalUserId ← envelopeText e.externalUserId "envelope_external_user_id_invalid"
  let userId ← envelopeText e.userId "envelope_user_id_invalid"
  let agentId ← envelopeText e.agentId "envelope_agent_id_invalid"
  let sourceInterface ← envelopeText e.sourceInterface "envelope_source_interface_invalid"
  let channelScope ← envelopeText e.channelScope "envelope_channel_scope_invalid"
  let authorizationSnapshotRef ← envelopeText e.authorizationSnapshotRef
    "envelope_authorization_snapshot_ref_invalid"
  require (isSkillId (fold e.skillId)) (.toolContractError "skill_id_invalid")
  let identity ← toolOperationId rootRequestId e.toolId e.contractVersion e.callOrdinal e.arguments
  require (e.operationId = identity.operationId ∧ e.argumentsHash = identity.argumentsHash)
    (.toolContractError "envelope_operation_identity_mismatch")
  let descriptorHash := fold e.descriptorHash
  require (descriptorHash = [] || isHash descriptorHash)
    (.toolContractError "envelope_descriptor_hash_invalid")
  let resourceVersion := strip
    (if e.resourceVersion = [] then intText e.contractVersion else e.resourceVersion)
  require (resourceVersion ≠ [] ∧ resourceVersion.length ≤ 255 ∧ newline ∉ resourceVersion)
    (.toolContractError "envelope_resource_version_invalid")
  .ok
    { e with
      rootRequestId, sessionId, principalKind, principalSubject, externalUserId, userId, agentId
      sourceInterface, channelScope, authorizationSnapshotRef, skillId := fold e.skillId
      toolId := fold e.toolId, arguments := identity.arguments, descriptorHash, resourceVersion }

/-- The texts that an envelope is created with, beside those of its descriptor. -/
structure EnvelopeArgs where
  rootRequestId : Str
  callOrdinal : Int
  sessionId : Str
  principalKind : Str
  principalSubject : Str
  externalUserId : Str
  userId : Str
  agentId : Str
  sourceInterface : Str
  channelScope : Str
  skillId : Str
  authorizationSnapshotRef : Str
  resourceVersion : Str

/-- `ToolCallEnvelope.create`. -/
def createEnvelope (a : EnvelopeArgs) (d : ToolDescriptor) (validated : List (Str × Json)) :
    Except PyError ToolCallEnvelope := do
  let identity ← toolOperationId a.rootRequestId d.toolId d.contractVersion a.callOrdinal validated
  let descriptorHash ← sha256 d.toStorageDict
  postInitEnvelope
    { rootRequestId := a.rootRequestId, operationId := identity.operationId
      callOrdinal := a.callOrdinal, sessionId := a.sessionId, principalKind := a.principalKind
      principalSubject := a.principalSubject
      externalUserId := if a.externalUserId = [] then a.principalSubject else a.externalUserId
      userId := a.userId, agentId := a.agentId, sourceInterface := a.sourceInterface
      channelScope := a.channelScope, skillId := a.skillId, toolId := d.toolId
      contractVersion := d.contractVersion
      authorizationSnapshotRef := a.authorizationSnapshotRef
      argumentsHash := identity.argumentsHash, arguments := identity.arguments, descriptorHash
      resourceVersion :=
        if a.resourceVersion = [] then intText d.contractVersion else a.resourceVersion }

end Envelopes

section Preparation

/-- The arguments of `prepare_tool_call` beside those of the tool, and what the registry, the
dispatcher and the context answer. -/
structure Preparation where
  active : Bool
  registryCallable : Bool
  contractVersion : Int
  sourceInterface : Str
  requestedByUserId : Str
  agentId : Str
  requestId : Str
  callOrdinal : Int
  context : List (Str × Json)
  resolved : Except PyError (Option (List (Str × Json) × ToolDescriptor))
  enabled : Bool
  availability : Json
  handler : Option Canonicalizer
  current : Except PyError (Option (List (Str × Json) × ToolDescriptor))
  currentAvailability : Json

def authorizedHere (availability : Json) : Bool :=
  lookup (entriesOf availability) "configured" = some (.bool true) &&
    lookup (entriesOf availability) "authorized_here" = some (.bool true)

variable [PythonText]

/-- `str(first or ... or default)`. -/
def firstText (values : List (Option Json)) (default : Str) : Except PyError Str :=
  match values.find? fun v => v.any truthy with
  | some v => textOr v default
  | none => .ok default

/-- `_authorization_snapshot_ref`. -/
def authorizationSnapshotRef (d : ToolDescriptor) (context : List (Str × Json)) :
    Except PyError Str := do
  let userId ← textOr (lookup context "requested_by_user_id") []
  let externalUserId ← textOr (lookup context "external_user_id") []
  let agentId ← textOr (lookup context "agent_id") []
  let sourceInterface ← textOr (lookup context "source_interface") []
  let channelScope ← firstText [lookup context "discord_channel_id",
    lookup context "session_channel", lookup context "source_interface"] []
  let hash ← sha256 (.obj [("tool_id", .str d.toolId), ("contract_version", .int d.contractVersion),
    ("user_id", .str userId), ("external_user_id", .str externalUserId), ("agent_id", .str agentId),
    ("source_interface", .str sourceInterface), ("channel_scope", .str channelScope)])
  .ok (text "authz_v1_" ++ hash)

/-- The envelope of a call, of which the session and the channel are known. -/
def Preparation.envelope (p : Preparation) (skill : List (Str × Json)) (d : ToolDescriptor)
    (sessionId channelScope resourceVersion : Str) (arguments : List (Str × Json)) :
    Except PyError ToolCallEnvelope := do
  let principalKind ← textOr (lookup p.context "principal_kind") "user"
  let principalSubject ← textOr (lookup p.context "principal_subject") p.requestedByUserId
  let externalUserId ← textOr (lookup p.context "external_user_id") p.requestedByUserId
  let skillId ← textOr (lookup skill "skill_id") []
  let snapshotRef ← authorizationSnapshotRef d p.context
  createEnvelope
    { rootRequestId := p.requestId, callOrdinal := p.callOrdinal, sessionId, principalKind
      principalSubject, externalUserId, userId := p.requestedByUserId, agentId := p.agentId
      sourceInterface := p.sourceInterface, channelScope, skillId
      authorizationSnapshotRef := snapshotRef, resourceVersion }
    d arguments

variable [DateText]

/-- The arguments as the resolver of their domain leaves them. -/
def Preparation.arguments (p : Preparation) (skill : List (Str × Json)) (d : ToolDescriptor)
    (arguments : List (Str × Json)) : Except PyError (List (Str × Json)) := do
  let validated ← d.validateArguments (.obj arguments)
  let skillId ← textOr (lookup skill "skill_id") []
  let resolved ← canonicalizeToolArguments (fold skillId) p.handler d validated
  d.validateArguments (.obj resolved)

/-- `AuthorizedSkillExecutor.prepare_tool_call`. -/
def prepareToolCall (p : Preparation) (arguments : List (Str × Json)) :
    Except Refusal PreparedToolCall := do
  allow p.active "typed_execution_inactive"
  allow p.registryCallable "tool_registry_unavailable"
  let resolved ← deniedByContract p.resolved
  let first ← found resolved "tool_unknown_or_unauthorized"
  allow (first.2.contractVersion = p.contractVersion) "tool_contract_stale"
  allow p.enabled "tool_rollout_disabled"
  allow (authorizedHere p.availability) "tool_not_authorized_here"
  let resolvedArguments ← deniedByArguments (p.arguments first.1 first.2 arguments)
  let canonical ← deniedByArguments (canonicalizeIndependentBatchTargets first.2 resolvedArguments)
  let current ← deniedByContract p.current
  let second ← found current "tool_became_unavailable"
  let now ← raising (canonicalJson second.2.toStorageDict)
  let before ← raising (canonicalJson first.2.toStorageDict)
  allow (now = before) "tool_contract_stale"
  allow (authorizedHere p.currentAvailability) "tool_authorization_changed"
  let sessionId ← raising ((textOr (lookup p.context "session_id") []).map strip)
  allow (sessionId ≠ []) "session_binding_missing"
  let channelScope ← raising ((firstText [lookup p.context "discord_channel_id",
    lookup p.context "session_channel"] p.sourceInterface).map strip)
  let descriptorHash ← raising (sha256 second.2.toStorageDict)
  let resourceVersion ← raising ((firstText [lookup second.1 "updated_at",
    lookup second.1 "main_tools_contract_version"] (intText second.2.contractVersion)).map strip)
  allow (resourceVersion ≠ []) "tool_resource_version_missing"
  let envelope ← deniedByContract (p.envelope second.1 second.2 sessionId channelScope
    resourceVersion canonical)
  .ok ⟨envelope, second.2, descriptorHash, resourceVersion⟩

end Preparation

end HardyAI.Skills
