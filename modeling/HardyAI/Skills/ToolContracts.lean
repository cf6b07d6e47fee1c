import HardyAI.Foundation.Json
import HardyAI.Foundation.Sha256

/-! Typed tool contracts: canonical JSON, descriptors and the envelopes of
authorized calls. -/

open Foundation Foundation.Json

namespace HardyAI.Skills

section Canonical

def finite (bits : BitVec 64) : Bool := (bits >>> 52 &&& 0x7FF) ≠ 0x7FF

/-- `normalized[key] = value`. -/
def setField (fields : List (Str × Json)) (key : Str) (value : Json) : List (Str × Json) :=
  if (lookup fields key).isSome then fields.map fun p => if p.1 = key then (key, value) else p
  else fields ++ [(key, value)]

variable [PythonText]

mutual

/-- `_canonical_json_value`. -/
def canonicalValue : Json → Except PyError Json
  | .null => .ok .null
  | .bool b => .ok (.bool b)
  | .int n => .ok (.int n)
  | .float bits =>
    if finite bits then .ok (.float bits) else .error (.toolContractError "json_number_non_finite")
  | .str s => .ok (.str (PythonText.nfc s))
  | .arr items => (canonicalItems items).map .arr
  | .obj fields => (canonicalFields [] fields).map .obj

def canonicalItems : List Json → Except PyError (List Json)
  | [] => .ok []
  | x :: xs => do
    let y ← canonicalValue x
    let ys ← canonicalItems xs
    .ok (y :: ys)

def canonicalFields (normalized : List (Str × Json)) :
    List (Str × Json) → Except PyError (List (Str × Json))
  | [] => .ok normalized
  | (k, x) :: xs => do
    let y ← canonicalValue x
    canonicalFields (setField normalized (PythonText.nfc k) y) xs

end

theorem canonicalValue_arr (items : List Json) :
    canonicalValue (.arr items) = (canonicalItems items).map .arr := rfl

theorem canonicalValue_obj (fields : List (Str × Json)) :
    canonicalValue (.obj fields) = (canonicalFields [] fields).map .obj := rfl

theorem canonicalItems_cons (x : Json) (xs : List Json) :
    canonicalItems (x :: xs) = (do
      let y ← canonicalValue x
      let ys ← canonicalItems xs
      .ok (y :: ys)) := rfl

theorem canonicalFields_cons (normalized : List (Str × Json)) (k : Str) (x : Json)
    (xs : List (Str × Json)) : canonicalFields normalized ((k, x) :: xs) = (do
      let y ← canonicalValue x
      canonicalFields (setField normalized (PythonText.nfc k) y) xs) := rfl
/-- `canonical_json`. -/
def canonicalJson (value : Json) : Except PyError Str := do
  let normalized ← canonicalValue value
  dump false normalized

/-- `hashlib.sha256(canonical_json(value).encode("utf-8")).hexdigest()`. -/
def sha256 (value : Json) : Except PyError Str := do
  let canonical ← canonicalJson value
  let bytes ← utf8 canonical
  .ok (Sha256.hexdigest bytes)

end Canonical

section Descriptor

inductive TransferScope
  | sameDomain | crossDomain
  deriving DecidableEq

def TransferScope.value : TransferScope → Str
  | .sameDomain => "same_domain"
  | .crossDomain => "cross_domain"

structure TransferableObservationField where
  pattern : Str
  scope : Str
  deriving DecidableEq

inductive ApprovalRule
  | none | conditional | always | denied
  deriving DecidableEq

def ApprovalRule.value : ApprovalRule → Str
  | .none => "none"
  | .conditional => "conditional"
  | .always => "always"
  | .denied => "denied"

inductive Effect
  | read | localWrite | externalWrite | destructiveLocal | destructiveExternal
  | outboundCommunication | privileged
  deriving DecidableEq

def Effect.value : Effect → Str
  | .read => "read"
  | .localWrite => "local_write"
  | .externalWrite => "external_write"
  | .destructiveLocal => "destructive_local"
  | .destructiveExternal => "destructive_external"
  | .outboundCommunication => "outbound_communication"
  | .privileged => "privileged"

inductive Sensitivity
  | normal | privateData | financial | identity | highlyRestricted
  deriving DecidableEq

def Sensitivity.value : Sensitivity → Str
  | .normal => "normal"
  | .privateData => "private"
  | .financial => "financial"
  | .identity => "identity"
  | .highlyRestricted => "highly_restricted"

inductive Persistence
  | standard | redacted | noStore
  deriving DecidableEq

def Persistence.value : Persistence → Str
  | .standard => "standard"
  | .redacted => "redacted"
  | .noStore => "no_store"

inductive Idempotency
  | notApplicable | required
  deriving DecidableEq

def Idempotency.value : Idempotency → Str
  | .notApplicable => "not_applicable"
  | .required => "required"

inductive EffectCardinality
  | single | atomicBatch | independentBatch
  deriving DecidableEq

def EffectCardinality.value : EffectCardinality → Str
  | .single => "single"
  | .atomicBatch => "atomic_batch"
  | .independentBatch => "independent_batch"

def isLower (c : CodePoint) : Bool := 0x61 ≤ c.val && c.val ≤ 0x7A
def isDecimal (c : CodePoint) : Bool := 0x30 ≤ c.val && c.val ≤ 0x39
def isAlphanumeric (c : CodePoint) : Bool :=
  isLower c || isDecimal c || (0x41 ≤ c.val && c.val ≤ 0x5A)
def isWord (c : CodePoint) : Bool := isLower c || isDecimal c || c.val = 0x5F

/-- `[a-z][a-z0-9_]{0,limit}`. -/
def isName (limit : Nat) : Str → Bool
  | [] => false
  | c :: cs => isLower c && cs.all isWord && cs.length ≤ limit

/-- The text before and after the first occurrence of `c`. -/
def partition (c : CodePoint) : Str → Str × Str
  | [] => ([], [])
  | x :: xs => if x = c then ([], xs) else (x :: (partition c xs).1, (partition c xs).2)

def dot : CodePoint := 0x2E

/-- `_TOOL_ID_RE`. -/
def isToolId (s : Str) : Bool :=
  s.contains dot && isName 47 (partition dot s).1 && isName 63 (partition dot s).2

/-- `_SKILL_ID_RE`. -/
def isSkillId (s : Str) : Bool :=
  match s.drop 6 with
  | [] => false
  | c :: cs => startsWith s "skill." && isLower c && 1 ≤ cs.length && cs.length ≤ 95 &&
      cs.all fun x => isWord x || x.val = 0x2E || x.val = 0x2D

/-- A descriptor as its constructor leaves it. The schemas are JSON objects. -/
structure ToolDescriptor where
  toolId : Str
  skillId : Str
  contractVersion : Int
  purpose : Str
  inputSchema : Json
  observationSchema : Json
  effect : Effect
  approvalRule : ApprovalRule
  approvalConditions : List Str
  sensitivity : Sensitivity
  persistence : Persistence
  idempotency : Idempotency
  effectCardinality : EffectCardinality
  transferableObservationFields : List TransferableObservationField
  runtimeDependencies : List Str
  timeoutSeconds : Int
  maxResultItems : Int
  maxObservationChars : Int
  legacyIntents : List Str
  interactive : Bool
  toolId_valid : isToolId toolId = true
  skillId_valid : isSkillId skillId = true
  contractVersion_valid : 1 ≤ contractVersion ∧ contractVersion ≤ 65535
  deriving DecidableEq

def ToolDescriptor.toStorageDict (d : ToolDescriptor) : Json :=
  .obj [("tool_id", .str d.toolId), ("skill_id", .str d.skillId),
    ("contract_version", .int d.contractVersion), ("purpose", .str d.purpose),
    ("input_schema", d.inputSchema), ("observation_schema", d.observationSchema),
    ("effect", .str d.effect.value), ("approval_rule", .str d.approvalRule.value),
    ("approval_conditions", .arr (d.approvalConditions.map .str)),
    ("sensitivity", .str d.sensitivity.value), ("persistence", .str d.persistence.value),
    ("idempotency", .str d.idempotency.value),
    ("effect_cardinality", .str d.effectCardinality.value),
    ("transferable_observation_fields", .arr (d.transferableObservationFields.map fun f =>
      .obj [("pattern", .str f.pattern), ("scope", .str f.scope)])),
    ("runtime_dependencies", .arr (d.runtimeDependencies.map .str)),
    ("timeout_seconds", .int d.timeoutSeconds), ("max_result_items", .int d.maxResultItems),
    ("max_observation_chars", .int d.maxObservationChars),
    ("legacy_intents", .arr (d.legacyIntents.map .str)), ("interactive", .bool d.interactive)]

theorem firstVersion_valid : (1 : Int) ≤ 1 ∧ (1 : Int) ≤ 65535 := by decide

theorem isToolId_createEvent : isToolId "calendar.create_event" = true := by decide

theorem isSkillId_calendar : isSkillId "skill.calendar" = true := by decide

end Descriptor

section Envelope

structure ToolCallEnvelope where
  rootRequestId : Str
  operationId : Str
  callOrdinal : Int
  sessionId : Str
  principalKind : Str
  principalSubject : Str
  externalUserId : Str
  userId : Str
  agentId : Str
  sourceInterface : Str
  channelScope : Str
  skillId : Str
  toolId : Str
  contractVersion : Int
  authorizationSnapshotRef : Str
  argumentsHash : Str
  arguments : List (Str × Json)
  descriptorHash : Str
  resourceVersion : Str
  deriving DecidableEq

def ToolCallEnvelope.fields (e : ToolCallEnvelope) : List (Str × Json) :=
  [("root_request_id", .str e.rootRequestId), ("operation_id", .str e.operationId),
    ("call_ordinal", .int e.callOrdinal), ("session_id", .str e.sessionId),
    ("principal_kind", .str e.principalKind), ("principal_subject", .str e.principalSubject),
    ("external_user_id", .str e.externalUserId), ("user_id", .str e.userId),
    ("agent_id", .str e.agentId), ("source_interface", .str e.sourceInterface),
    ("channel_scope", .str e.channelScope), ("skill_id", .str e.skillId),
    ("tool_id", .str e.toolId), ("contract_version", .int e.contractVersion),
    ("authorization_snapshot_ref", .str e.authorizationSnapshotRef),
    ("arguments_hash", .str e.argumentsHash), ("arguments", .obj e.arguments),
    ("descriptor_hash", .str e.descriptorHash), ("resource_version", .str e.resourceVersion)]

structure PreparedToolCall where
  envelope : ToolCallEnvelope
  descriptor : ToolDescriptor
  descriptorHash : Str
  resourceVersion : Str
  deriving DecidableEq

end Envelope

end HardyAI.Skills
