import HardyAI.Foundation.Pointer
import HardyAI.Reviews.Repository
import HardyAI.Skills.OperationIdentity

/-! The review service: the checks of a proposal request, its batch and transfer
manifests, and the request that it hands to the repository. -/

open Foundation Foundation.Json HardyAI.Skills

namespace HardyAI.Reviews.Service

section Equality

/-- The value of a finite float as `m * 2 ^ e`. -/
def floatParts (bits : BitVec 64) : Int × Int :=
  let exponent : Int := (bits >>> 52 &&& 0x7FF).toNat
  let fraction : Int := (bits &&& 0xFFFFFFFFFFFFF).toNat
  let sign : Int := if bits.msb then -1 else 1
  if exponent = 0 then (sign * fraction, -1074)
  else (sign * (fraction + 2 ^ 52), exponent - 1075)

/-- The value of a Python number, whole numbers with the exponent 0. -/
def numberParts : Json → Option (Int × Int)
  | .bool b => some (if b then 1 else 0, 0)
  | .int n => some (n, 0)
  | .float bits => if finite bits then some (floatParts bits) else none
  | .null | .str _ | .arr _ | .obj _ => none

def sameNumber (x y : Int × Int) : Bool :=
  let low := min x.2 y.2
  x.1 * 2 ^ (x.2 - low).toNat = y.1 * 2 ^ (y.2 - low).toNat

/-- `==` of two scalars. -/
def sameScalar (x y : Json) : Bool :=
  match numberParts x, numberParts y with
  | some a, some b => sameNumber a b
  | none, none => x = y
  | _, _ => false

def isScalar : Json → Bool
  | .arr _ | .obj _ => false
  | .null | .bool _ | .int _ | .float _ | .str _ => true

/-- `dict(value) == expected` for expected values that are scalars. -/
def sameFields (fields expected : List (Str × Json)) : Bool :=
  fields.all (fun p => (lookup expected p.1).isSome) &&
    expected.all fun p => (lookup fields p.1).any fun v => isScalar v && sameScalar v p.2

/-- `set(value) == expected`. -/
def hasKeys (fields : List (Str × Json)) (expected : List Str) : Bool :=
  fields.all (fun p => expected.contains p.1) && expected.all fun k => (lookup fields k).isSome

def isText (value : Option Json) (expected : Str) : Bool := value = some (.str expected)

def isNumber (value : Option Json) (expected : Int) : Bool :=
  value.any fun v => isScalar v && sameScalar v (.int expected)

end Equality

section Checks

variable [PythonText]

/-- `_bounded_text`. -/
def boundedText (value : Str) (code : String) (maximum : Nat) : Except PyError Str :=
  let normalized := join " " (splitWords value)
  if normalized = [] ∨ maximum < normalized.length then .error (.valueError code)
  else .ok normalized

def boundedField (fields : List (Str × Json)) (key : Str) (code : String) : Except PyError Str := do
  boundedText (← textOr (lookup fields key) []) code 255

/-- `_hash`. -/
def hashField (fields : List (Str × Json)) (key : Str) (code : String) : Except PyError Str := do
  let normalized := PythonText.casefold (strip (← textOr (lookup fields key) []))
  if isHash normalized then .ok normalized else .error (.valueError code)

def forbiddenArgumentKeys : List Str :=
  ["api_key", "body", "credential", "credentials", "email_body", "document_text",
    "raw_document_text", "raw_email_body", "secret", "token"]

mutual

/-- `_assert_no_forbidden_arguments` finds a key. -/
def forbiddenArguments : Json → Bool
  | .arr items => forbiddenItems items
  | .obj fields => forbiddenFields fields
  | .null | .bool _ | .int _ | .float _ | .str _ => false

def forbiddenItems : List Json → Bool
  | [] => false
  | x :: xs => forbiddenArguments x || forbiddenItems xs

def forbiddenFields : List (Str × Json) → Bool
  | [] => false
  | (k, x) :: xs => forbiddenArgumentKeys.contains (PythonText.casefold (strip k)) ||
      forbiddenArguments x || forbiddenFields xs

end

def actionRequestBindingHash (e : ToolCallEnvelope) : Except PyError Str :=
  sha256 (.obj [("root_request_id", .str e.rootRequestId), ("session_id", .str e.sessionId),
    ("principal_kind", .str e.principalKind), ("principal_subject", .str e.principalSubject),
    ("external_user_id", .str e.externalUserId), ("requester_user_id", .str e.userId),
    ("agent_id", .str e.agentId)])

def actionChannelBindingHash (e : ToolCallEnvelope) : Except PyError Str :=
  sha256 (.obj [("source_interface", .str e.sourceInterface),
    ("channel_scope", .str e.channelScope)])

end Checks

section Batch

variable [PythonText]

/-- The required array properties of a schema that the arguments fill with lists. -/
def batchTargetFields (d : ToolDescriptor) (arguments : List (Str × Json)) :
    Except PyError (List Str) :=
  match d.inputSchema with
  | .obj schema =>
    match lookup schema "properties", lookup schema "required" with
    | some (.obj properties), some (.arr required) =>
      .ok ((properties.filter fun p => required.contains (.str p.1) &&
        (match p.2 with | .obj child => isText (lookup child "type") "array" | _ => false) &&
        (lookup arguments p.1).any fun v => match v with | .arr _ => true | _ => false).map
          Prod.fst)
    | _, _ => .error (.valueError "action_batch_target_contract_invalid")
  | _ => .error (.valueError "action_batch_target_contract_invalid")

def batchChildren (e : ToolCallEnvelope) (targetField : Str) :
    Nat → List (Json × Str) → Except PyError (List Json)
  | _, [] => .ok []
  | index, (target, canonical) :: rest => do
    let targetRef := match target with | .str s => s | _ => canonical
    let (childId, childHash) ← toolChildOperationId e.operationId index targetRef
      (setField e.arguments targetField (.arr [target]))
    let targetHash ← sha256 target
    let children ← batchChildren e targetField (index + 1) rest
    .ok (.obj [("child_operation_id", .str childId), ("child_index", .int index),
      ("target_hash", .str targetHash), ("arguments_hash", .str childHash)] :: children)

/-- `derive_action_batch_manifest`. -/
def deriveActionBatchManifest (e : ToolCallEnvelope) (d : ToolDescriptor) :
    Except PyError (List (Str × Json) × Str) := do
  require (d.effectCardinality = .independentBatch)
    (.valueError "action_batch_manifest_not_allowed")
  match ← batchTargetFields d e.arguments with
  | [] => .error (.valueError "action_batch_target_contract_invalid")
  | targetField :: _ =>
    let targets := match lookup e.arguments targetField with | some (.arr items) => items | _ => []
    require (1 ≤ targets.length ∧ targets.length ≤ 100)
      (.valueError "action_batch_target_count_invalid")
    let canonical ← targets.mapM canonicalJson
    require (canonical.Nodup) (.valueError "action_batch_target_duplicate")
    require (canonical.insertionSort (· ≤ ·) = canonical)
      (.valueError "action_batch_targets_not_canonical")
    let children ← batchChildren e targetField 1 (targets.zip canonical)
    let manifest : List (Str × Json) :=
      [("manifest_version", .int 1), ("parent_operation_id", .str e.operationId),
        ("parent_arguments_hash", .str e.argumentsHash),
        ("expected_child_count", .int children.length), ("children", .arr children)]
    let hash ← sha256 (.obj manifest)
    .ok (manifest, hash)

end Batch

section Transfer

variable [PythonText]

/-- `_pointer_value`. -/
def pointerValue (value : Json) (pointer : Str) : Except PyError (Option Json) :=
  if pointer = [] then .ok (some value)
  else if startsWith pointer "/" then resolve value (pointerSegments pointer) else .ok none

/-- `_pointer_pattern_matches`, of pointers as long as the pattern. -/
def pointerPatternMatches (pattern pointer : Str) : Bool :=
  startsWith pattern "/" && startsWith pointer "/" &&
    (rawSegments pattern).length = (rawSegments pointer).length &&
    segmentsMatch (rawSegments pattern) (rawSegments pointer)

def transferTopLevel : List Str :=
  ["manifest_version", "request_id", "request_hash", "requester_user_id", "agent_id",
    "channel_binding_hash", "destination", "destination_values", "sources"]

def transferDestinationKeys : List Str :=
  ["skill_id", "domain", "tool_id", "contract_version", "descriptor_hash", "resource_version",
    "arguments_hash", "sensitivity", "persistence"]

def transferDestinationValueKeys : List Str := ["destination_pointer", "value_hash"]

def transferSourceKeys : List Str :=
  ["observation_ref", "operation_id", "skill_id", "domain", "tool_id", "contract_version",
    "descriptor_hash", "resource_version", "transfer_pattern", "transfer_scope", "source_pointer",
    "subtree_hash", "sensitivity", "persistence", "untrusted"]

/-- `expected_destination`. -/
def transferDestination (e : ToolCallEnvelope) (d : ToolDescriptor)
    (descriptorHash resourceVersion : Str) : List (Str × Json) :=
  [("skill_id", .str e.skillId), ("domain", .str (partition dot e.toolId).1),
    ("tool_id", .str e.toolId), ("contract_version", .int e.contractVersion),
    ("descriptor_hash", .str descriptorHash), ("resource_version", .str resourceVersion),
    ("arguments_hash", .str e.argumentsHash), ("sensitivity", .str d.sensitivity.value),
    ("persistence", .str d.persistence.value)]

def validateDestinationValues (arguments : List (Str × Json)) (seen : List Str) :
    List Json → Except PyError (List Json)
  | [] => .ok []
  | .obj fields :: rest => do
    require (hasKeys fields transferDestinationValueKeys)
      (.valueError "action_transfer_destination_value_shape_invalid")
    let pointer ← textOr (lookup fields "destination_pointer") []
    require (startsWith pointer "/" && pointer.length ≤ 500 && !seen.contains pointer)
      (.valueError "action_transfer_destination_pointer_invalid")
    let valueHash ← hashField fields "value_hash" "action_transfer_value_hash_invalid"
    let value ← pointerValue (.obj arguments) pointer
    let hash ← value.mapM sha256
    require (hash = some valueHash) (.valueError "action_transfer_destination_value_changed")
    let values ← validateDestinationValues arguments (pointer :: seen) rest
    .ok (.obj [("destination_pointer", .str pointer), ("value_hash", .str valueHash)] :: values)
  | _ :: _ => .error (.valueError "action_transfer_destination_value_shape_invalid")

def sensitivities : List Str :=
  ["normal", "private", "financial", "identity", "highly_restricted"]
def persistences : List Str := ["standard", "redacted", "no_store"]

/-- A source of a manifest after its fields are normalized. -/
structure TransferSource where
  observationRef : Str
  operationId : Str
  skillId : Str
  domain : Str
  toolId : Str
  contractVersion : Int
  descriptorHash : Str
  resourceVersion : Str
  transferPattern : Str
  transferScope : Str
  sourcePointer : Str
  subtreeHash : Str
  sensitivity : Str
  persistence : Str
  untrusted : Bool
  deriving DecidableEq

def TransferSource.fields (s : TransferSource) : List (Str × Json) :=
  [("observation_ref", .str s.observationRef), ("operation_id", .str s.operationId),
    ("skill_id", .str s.skillId), ("domain", .str s.domain), ("tool_id", .str s.toolId),
    ("contract_version", .int s.contractVersion), ("descriptor_hash", .str s.descriptorHash),
    ("resource_version", .str s.resourceVersion), ("transfer_pattern", .str s.transferPattern),
    ("transfer_scope", .str s.transferScope), ("source_pointer", .str s.sourcePointer),
    ("subtree_hash", .str s.subtreeHash), ("sensitivity", .str s.sensitivity),
    ("persistence", .str s.persistence), ("untrusted", .bool s.untrusted)]

def foldedField (fields : List (Str × Json)) (key : Str) (code : String) : Except PyError Str :=
  (boundedField fields key code).map PythonText.casefold

/-- The fields of one source, read and normalized. -/
def readSource (fields : List (Str × Json)) : Except PyError TransferSource := do
  require (hasKeys fields transferSourceKeys) (.valueError "action_transfer_source_shape_invalid")
  let sourcePointer ← textOr (lookup fields "source_pointer") []
  let transferPattern ← textOr (lookup fields "transfer_pattern") []
  let scopeText ← textOr (lookup fields "transfer_scope") []
  let transferScope := PythonText.casefold (strip scopeText)
  require ((sourcePointer = [] || startsWith sourcePointer "/") &&
    startsWith transferPattern "/" &&
    [TransferScope.sameDomain.value, TransferScope.crossDomain.value].contains transferScope)
    (.valueError "action_transfer_source_binding_invalid")
  match lookup fields "contract_version", lookup fields "untrusted" with
  | some (.int contractVersion), some (.bool untrusted) => do
    require (1 ≤ contractVersion) (.valueError "action_transfer_source_binding_invalid")
    let observationRef ← boundedField fields "observation_ref"
      "action_transfer_observation_ref_invalid"
    let operationId ← boundedField fields "operation_id" "action_transfer_operation_id_invalid"
    let skillId ← foldedField fields "skill_id" "action_transfer_skill_id_invalid"
    let domain ← foldedField fields "domain" "action_transfer_domain_invalid"
    let toolId ← foldedField fields "tool_id" "action_transfer_tool_id_invalid"
    let descriptorHash ← hashField fields "descriptor_hash"
      "action_transfer_descriptor_hash_invalid"
    let resourceVersion ← boundedField fields "resource_version"
      "action_transfer_resource_version_invalid"
    let subtreeHash ← hashField fields "subtree_hash" "action_transfer_subtree_hash_invalid"
    let sensitivity ← foldedField fields "sensitivity" "action_transfer_sensitivity_invalid"
    let persistence ← foldedField fields "persistence" "action_transfer_persistence_invalid"
    .ok
      { observationRef, operationId, skillId, domain, toolId, contractVersion, descriptorHash
        resourceVersion, transferPattern, transferScope, sourcePointer, subtreeHash, sensitivity
        persistence, untrusted }
  | _, _ => .error (.valueError "action_transfer_source_binding_invalid")

/-- The checks of one source against the call that it is transferred to. -/
def checkSource (e : ToolCallEnvelope) (s : TransferSource) : Except PyError Unit := do
  require (sensitivities.contains s.sensitivity && persistences.contains s.persistence)
    (.valueError "action_transfer_source_policy_invalid")
  require (s.domain = (partition dot s.toolId).1)
    (.valueError "action_transfer_source_domain_invalid")
  require (s.sourcePointer = [] || pointerPatternMatches s.transferPattern s.sourcePointer)
    (.valueError "action_transfer_source_pointer_invalid")
  require (s.transferScope ≠ TransferScope.sameDomain.value ||
    (s.skillId = e.skillId && s.domain = (partition dot e.toolId).1))
    (.valueError "action_transfer_source_scope_invalid")

def TransferSource.key (s : TransferSource) : Str × Str × Str :=
  (s.operationId, s.sourcePointer, s.subtreeHash)

def validateSources (e : ToolCallEnvelope) (seen : List (Str × Str × Str)) :
    List Json → Except PyError (List TransferSource)
  | [] => .ok []
  | .obj fields :: rest => do
    let source ← readSource fields
    checkSource e source
    require (!seen.contains source.key) (.valueError "action_transfer_source_duplicate")
    let sources ← validateSources e (source.key :: seen) rest
    .ok (source :: sources)
  | _ :: _ => .error (.valueError "action_transfer_source_shape_invalid")

/-- The first checks of a manifest: its shape, its versions and its lists. -/
def readManifest (value : Json) (e : ToolCallEnvelope) :
    Except PyError (List (Str × Json) × List (Str × Json) × List Json × List Json) :=
  match value with
  | .obj fields => do
    require (hasKeys fields transferTopLevel) (.valueError "action_transfer_manifest_shape_invalid")
    match lookup fields "destination", lookup fields "destination_values", lookup fields "sources" with
    | some (.obj destination), some (.arr values), some (.arr sources) => do
      require (isNumber (lookup fields "manifest_version") 1 &&
        isText (lookup fields "request_id") e.rootRequestId &&
        isText (lookup fields "requester_user_id") e.userId &&
        isText (lookup fields "agent_id") e.agentId &&
        hasKeys destination transferDestinationKeys &&
        1 ≤ values.length && values.length ≤ 32 && 1 ≤ sources.length && sources.length ≤ 32)
        (.valueError "action_transfer_manifest_binding_invalid")
      .ok (fields, destination, values, sources)
    | _, _, _ => .error (.valueError "action_transfer_manifest_binding_invalid")
  | .null | .bool _ | .int _ | .float _ | .str _ | .arr _ =>
    .error (.valueError "action_transfer_manifest_shape_invalid")

/-- `_validate_transfer_manifest`. -/
def validateTransferManifest (value : Json) (e : ToolCallEnvelope) (d : ToolDescriptor)
    (descriptorHash resourceVersion : Str) : Except PyError (List (Str × Json) × Str) := do
  let (fields, destination, values, sources) ← readManifest value e
  let requestHash ← hashField fields "request_hash" "action_transfer_request_hash_invalid"
  let channelHash ← hashField fields "channel_binding_hash"
    "action_transfer_channel_binding_hash_invalid"
  let expectedRequest ← actionRequestBindingHash e
  require (requestHash = expectedRequest) (.valueError "action_transfer_request_changed")
  let expectedChannel ← actionChannelBindingHash e
  require (channelHash = expectedChannel) (.valueError "action_transfer_channel_changed")
  let expected := transferDestination e d descriptorHash resourceVersion
  require (sameFields destination expected) (.valueError "action_transfer_destination_changed")
  let values ← validateDestinationValues e.arguments [] values
  let sources ← validateSources e [] sources
  let manifest : List (Str × Json) :=
    [("manifest_version", .int 1), ("request_id", .str e.rootRequestId),
      ("request_hash", .str requestHash), ("requester_user_id", .str e.userId),
      ("agent_id", .str e.agentId), ("channel_binding_hash", .str channelHash),
      ("destination", .obj expected), ("destination_values", .arr values),
      ("sources", .arr (sources.map fun s => .obj s.fields))]
  let hash ← sha256 (.obj manifest)
  .ok (manifest, hash)

end Transfer

section Create

variable [PythonText]

/-- The manifests of a proposal with their hashes. -/
structure Manifests where
  batch : Option (List (Str × Json) × Str)
  transfer : Option (List (Str × Json) × Str)

def manifests (e : ToolCallEnvelope) (d : ToolDescriptor) (descriptorHash resourceVersion : Str)
    (transferManifest : Option Json) : Except PyError Manifests := do
  let batch ← if d.effectCardinality = .independentBatch then
      (deriveActionBatchManifest e d).map some
    else .ok none
  let transfer ← transferManifest.mapM fun value =>
    validateTransferManifest value e d descriptorHash resourceVersion
  require (d.persistence ≠ .noStore || transfer.isSome)
    (.valueError "action_proposal_no_store_requires_transfer_manifest")
  .ok ⟨batch, transfer⟩

/-- The text of `create_action_proposal` that no manifest enters. -/
structure ProposalText where
  purpose : Str
  resource : Str
  approver : Str
  expiry : Str
  summary : Str
  risk : Str

/-- `material`, whose hash identifies the proposal. -/
def proposalMaterial (e : ToolCallEnvelope) (d : ToolDescriptor) (t : ProposalText)
    (descriptorHash : Str) (m : Manifests) : List (Str × Json) :=
  setField (setField e.fields "descriptor_hash" (.str descriptorHash))
      "resource_version" (.str t.resource) ++
    ([("effect", .str d.effect.value), ("effect_cardinality", .str d.effectCardinality.value),
      ("sensitivity", .str d.sensitivity.value), ("persistence", .str d.persistence.value),
      ("destination_purpose", .str t.purpose), ("approver_principal", .str t.approver),
      ("safe_action_summary", .str t.summary), ("risk_summary", .str t.risk),
      ("expires_at", .str t.expiry),
      ("batch_manifest", (m.batch.map fun b => Json.obj b.1).getD .null),
      ("batch_manifest_hash", Json.ofText? (m.batch.map Prod.snd)),
      ("transfer_manifest", (m.transfer.map fun b => Json.obj b.1).getD .null),
      ("transfer_binding_hash", Json.ofText? (m.transfer.map Prod.snd))] : List (Str × Json))

def proposalBinding (e : ToolCallEnvelope) (d : ToolDescriptor) (t : ProposalText)
    (descriptorHash destinationHash proposalHash : Str) (m : Manifests) : ProposalBinding where
  idempotencyKey := text "action-proposal:v1:" ++ e.operationId
  proposalHash := proposalHash
  rootRequestId := e.rootRequestId
  operationId := e.operationId
  callOrdinal := e.callOrdinal
  sessionId := e.sessionId
  principalKind := e.principalKind
  principalSubject := e.principalSubject
  externalUserId := e.externalUserId
  requesterUserId := e.userId
  agentId := e.agentId
  sourceInterface := e.sourceInterface
  channelScope := e.channelScope
  skillId := e.skillId
  toolId := e.toolId
  contractVersion := e.contractVersion
  descriptorHash := descriptorHash
  resourceVersion := t.resource
  authorizationBinding := e.authorizationSnapshotRef
  argumentsHash := e.argumentsHash
  destinationArgumentsHash := destinationHash
  effect := d.effect.value
  effectCardinality := d.effectCardinality.value
  sensitivity := d.sensitivity.value
  persistence := d.persistence.value
  destinationPurpose := t.purpose
  approverPrincipal := t.approver
  safeActionSummary := t.summary
  riskSummary := t.risk
  batchManifestHash := m.batch.map Prod.snd
  transferBindingHash := m.transfer.map Prod.snd
  expiresAt := t.expiry

/-- The arguments of `create_action_proposal`; the expiry is an instant, whose text the source
parses back. -/
structure ProposalArgs where
  envelope : ToolCallEnvelope
  descriptor : ToolDescriptor
  resourceVersion : Str
  approverPrincipal : Str
  expiresAt : Instant
  destinationPurpose : Str := text "human_reviews"
  safeActionSummary : Str := []
  riskSummary : Str := []
  transferManifest : Option Json := none

/-- The request that `create_action_proposal` hands to the repository. -/
def proposalRequest (a : ProposalArgs) (now : Instant) :
    Except PyError ActionApprovalProposalRequest := do
  let e := a.envelope
  let d := a.descriptor
  require (e.toolId = d.toolId && e.contractVersion = d.contractVersion && e.skillId = d.skillId)
    (.valueError "action_proposal_descriptor_mismatch")
  require (d.effect ≠ .read) (.valueError "action_proposal_effect_invalid")
  require (d.sensitivity ≠ .highlyRestricted)
    (.valueError "action_proposal_sensitivity_prohibited")
  let purpose := PythonText.casefold
    (← boundedText a.destinationPurpose "action_proposal_destination_invalid" 64)
  require (purpose = "human_reviews" || purpose = "task_workspace")
    (.valueError "action_proposal_destination_invalid")
  let resource ← boundedText a.resourceVersion "action_proposal_resource_version_invalid" 255
  let approver ← boundedText a.approverPrincipal "action_proposal_approver_invalid" 255
  let expiry := isoUtc a.expiresAt
  require (isoUtc now < expiry) (.valueError "action_proposal_expiry_invalid")
  let descriptorHash ← sha256 d.toStorageDict
  require (!forbiddenFields e.arguments) (.valueError "action_proposal_forbidden_argument")
  let destinationHash ← sha256 (.obj e.arguments)
  require (destinationHash = e.argumentsHash)
    (.valueError "action_proposal_arguments_hash_mismatch")
  let m ← manifests e d descriptorHash resource a.transferManifest
  let summary ← boundedText (Jobs.orDefault a.safeActionSummary
    (text "Execute " ++ d.toolId ++ text ".")) "action_proposal_summary_invalid" 500
  let risk ← boundedText (Jobs.orDefault a.riskSummary
    (d.effect.value ++ text " at " ++ d.sensitivity.value ++ text " sensitivity."))
    "action_proposal_risk_invalid" 240
  let t : ProposalText := ⟨purpose, resource, approver, expiry, summary, risk⟩
  let proposalHash ← sha256 (.obj (proposalMaterial e d t descriptorHash m))
  .ok
    { toProposalBinding := proposalBinding e d t descriptorHash destinationHash proposalHash m
      destinationArguments := e.arguments
      batchManifest := m.batch.map Prod.fst, transferManifest := m.transfer.map Prod.fst }

def createActionProposal (a : ProposalArgs) (fresh : Fresh) : Transaction ReviewDb CreatedProposal :=
  fun db => do
  let request ← proposalRequest a fresh.now
  Reviews.createActionProposal request fresh db

end Create

end HardyAI.Reviews.Service
