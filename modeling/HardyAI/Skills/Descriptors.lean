import HardyAI.Foundation.Blanks
import HardyAI.Foundation.Pointer
import HardyAI.Skills.Schemas

/-! The construction of a descriptor from its arguments and from a mapping. -/

open Foundation Foundation.Json

namespace HardyAI.Skills

section Tables

def approvalConditionIds : List Str :=
  ["external_recipients_present", "cross_domain_no_store_transfer"]

def runtimeDependencyIds : List Str :=
  ["action_approval", "ticket_review", "document_processing", "email_operations"]

def transferScopes : List Str := ["same_domain", "cross_domain"]

/-- `_INITIAL_CROSS_DOMAIN_TRANSFER_KEYS`; all keys of the tools that have no list. -/
def initialCrossDomainTransferKeys : List (Str × Option (List Str)) :=
  [("email.summarize", some ["summary", "message_refs"]),
    ("lists.list_collections", none), ("lists.get_collection", none),
    ("calendar.query_events", some ["events"]), ("calendar.get_event", some ["event"]),
    ("home.list_devices", some ["devices"]),
    ("home.get_device_state", some ["device", "state", "truth_scope"]),
    ("research.search_web", some ["results"])]

def ApprovalRule.all : List ApprovalRule := [.none, .conditional, .always, .denied]

def Effect.all : List Effect :=
  [.read, .localWrite, .externalWrite, .destructiveLocal, .destructiveExternal,
    .outboundCommunication, .privileged]

def Sensitivity.all : List Sensitivity :=
  [.normal, .privateData, .financial, .identity, .highlyRestricted]

def Persistence.all : List Persistence := [.standard, .redacted, .noStore]

def Idempotency.all : List Idempotency := [.notApplicable, .required]

def EffectCardinality.all : List EffectCardinality := [.single, .atomicBatch, .independentBatch]

/-- The member of an enumeration that a text names. -/
def member {α : Type} (value : α → Str) (all : List α) (s : Str) (code : String) :
    Except PyError α :=
  match all.find? fun a => value a = s with
  | some a => .ok a
  | none => .error (.toolContractError code)

end Tables

section Text

variable [PythonText]

/-- `value.strip().casefold()`. -/
def fold (value : Str) : Str := PythonText.casefold (strip value)

/-- `str(item or "").strip().casefold()`. -/
def foldItem (item : Json) : Except PyError Str := (textOr (some item) []).map fold

end Text

section Pointers

/-- One segment of a pattern, in which `~` stands before `0` or `1` only. -/
def decodeEscapes : Str → Except PyError Str
  | [] => .ok []
  | [c] =>
    if c ≠ tilde then .ok [c] else .error (.toolContractError "transfer_pattern_escape_invalid")
  | c :: d :: rest =>
    if c ≠ tilde then (decodeEscapes (d :: rest)).map (c :: ·)
    else if d = codePoint '0' then (decodeEscapes rest).map (tilde :: ·)
    else if d = codePoint '1' then (decodeEscapes rest).map (slash :: ·)
    else .error (.toolContractError "transfer_pattern_escape_invalid")

def patternSegment (raw : Str) : Except PyError Str := do
  let segment ← decodeEscapes raw
  require (segment ∉ ([[], text "-", text "**"] : List Str))
    (.toolContractError "transfer_pattern_segment_invalid")
  .ok segment

/-- `_decode_pointer`. -/
def decodePointer (pattern : Str) : Except PyError (List Str) := do
  require (startsWith pattern "/" && pattern ≠ text "/")
    (.toolContractError "transfer_pattern_invalid")
  require (!startsWith pattern "#" && !(text "/-").isSuffixOf pattern && !hasPart pattern "**")
    (.toolContractError "transfer_pattern_invalid")
  (rawSegments pattern).mapM patternSegment

variable [PythonText]

def allDigits (segment : Str) : Bool := segment ≠ [] && segment.all PythonText.isDigit

/-- `int(segment)` of digits. -/
def digitsInt (segment : Str) : Except PyError Int :=
  match segment.mapM PythonText.decimal with
  | none => .error (.valueError "invalid literal for int()")
  | some digits =>
    if segment.length > 4300 then .error (.valueError "int_max_str_digits")
    else .ok (digits.foldl (fun n d => 10 * n + (d.val : Int)) 0)

/-- An index of the items, or the sign for all of them. -/
def itemReached (most : Int) (segment : Str) : Except PyError Unit :=
  if segment = star then require (1 ≤ most) (.toolContractError "transfer_pattern_zero_match")
  else do
    require (allDigits segment) (.toolContractError "transfer_pattern_array_index_invalid")
    let index ← digitsInt segment
    require (index < most) (.toolContractError "transfer_pattern_array_index_invalid")

def schemaAtItem (schema : List (Str × Json)) (segment : Str) : Except PyError Json := do
  itemReached ((intOr schema "maxItems" 0).getD 0) segment
  .ok ((lookup schema "items").getD .null)

def schemaAtProperty (properties : List (Str × Json)) (segment : Str) : Except PyError Json :=
  match lookup properties segment with
  | some child =>
    if segment = star then .error (.toolContractError "transfer_pattern_schema_mismatch")
    else .ok child
  | none => .error (.toolContractError "transfer_pattern_schema_mismatch")

/-- The members of a schema. -/
def entriesOf : Json → List (Str × Json)
  | .obj schema => schema
  | _ => []

def propertiesOf (schema : List (Str × Json)) : List (Str × Json) :=
  ((lookup schema "properties").map entriesOf).getD []

def schemaChild (t : SchemaType) (schema : List (Str × Json)) (segment : Str) :
    Except PyError Json :=
  match t with
  | .object => schemaAtProperty (propertiesOf schema) segment
  | .array => schemaAtItem schema segment
  | .string | .integer | .number | .boolean | .null =>
    .error (.toolContractError "transfer_pattern_schema_mismatch")

/-- `_schema_at_pointer`. -/
def schemaAtPointer (schema : Json) : List Str → Except PyError Json
  | [] => .ok schema
  | segment :: segments => do
    let t ← schemaType (entriesOf schema)
    let child ← schemaChild t (entriesOf schema) segment
    schemaAtPointer child segments

def segmentsCompatible (left right : Str) : Bool :=
  left = right || (left = star && allDigits right) || (right = star && allDigits left)

def patternsOverlap (left right : List Str) : Bool :=
  (left.zip right).all fun p => segmentsCompatible p.1 p.2

end Pointers

section Transfer

variable [PythonText]

omit [PythonText] in
/-- `isinstance(value, Mapping) and set(value) == keys`. -/
def hasKeys (keys : List Str) : Json → Bool
  | .obj fields => (fields.all fun p => p.1 ∈ keys) && keys.all fun k => (lookup fields k).isSome
  | _ => false

/-- `TransferableObservationField.from_value`. -/
def transferFieldOf (observationSchema value : Json) :
    Except PyError TransferableObservationField := do
  require (hasKeys ["pattern", "scope"] value) (.toolContractError "transfer_field_shape_invalid")
  let pattern ← textOr (lookup (entriesOf value) "pattern") []
  let scope ← (textOr (lookup (entriesOf value) "scope") []).map fold
  require (scope ∈ transferScopes) (.toolContractError "transfer_scope_invalid")
  let segments ← decodePointer pattern
  let _ ← schemaAtPointer observationSchema segments
  .ok ⟨pattern, scope⟩

/-- A field as it was given, or read from a mapping. -/
def transferField (observationSchema : Json) :
    TransferableObservationField ⊕ Json → Except PyError TransferableObservationField
  | .inl field => .ok field
  | .inr value => transferFieldOf observationSchema value

/-- One round of the loop over the fields, with the segments of the fields before. -/
def addTransferField (observationSchema : Json)
    (found : List TransferableObservationField × List (List Str))
    (raw : TransferableObservationField ⊕ Json) :
    Except PyError (List TransferableObservationField × List (List Str)) := do
  let field ← transferField observationSchema raw
  let segments ← decodePointer field.pattern
  let _ ← schemaAtPointer observationSchema segments
  require (!found.2.any fun previous => patternsOverlap segments previous)
    (.toolContractError "transfer_pattern_overlap")
  .ok (found.1 ++ [field], found.2 ++ [segments])

def escapeName (name : Str) : Str :=
  name.flatMap fun c => if c = tilde then text "~0" else if c = slash then text "~1" else [c]

omit [PythonText] in
/-- One field for each property, as the reviewed policy has it. -/
def compiledFields (keys : Option (List Str)) (properties : List (Str × Json)) :
    List TransferableObservationField :=
  properties.map fun p => ⟨text "/" ++ escapeName p.1,
    if keys.all fun ks => p.1 ∈ ks then "cross_domain" else "same_domain"⟩

def transferFields (toolId : Str) (observationSchema : Json)
    (raw : List (TransferableObservationField ⊕ Json)) :
    Except PyError (List TransferableObservationField) := do
  let found ← raw.foldlM (addTransferField observationSchema) ([], [])
  require (found.1.length ≤ 64) (.toolContractError "transfer_field_count_exceeded")
  match initialCrossDomainTransferKeys.lookup toolId with
  | some keys => .ok (compiledFields keys (propertiesOf (entriesOf observationSchema)))
  | none => .ok found.1

end Transfer

section Construction

/-- The arguments of the constructor of a descriptor. -/
structure DescriptorArgs where
  toolId : Str
  skillId : Str
  contractVersion : Json
  purpose : Str
  inputSchema : Json
  observationSchema : Json
  effect : Str
  approvalRule : Str
  approvalConditions : List Json
  sensitivity : Str
  persistence : Str
  idempotency : Str
  effectCardinality : Str
  transferableObservationFields : List (TransferableObservationField ⊕ Json)
  runtimeDependencies : List Json
  timeoutSeconds : Json
  maxResultItems : Json
  maxObservationChars : Json
  legacyIntents : List Json
  interactive : Json

/-- A text that passes a check. -/
def checked (check : Str → Bool) (s : Str) (code : String) :
    Except PyError { s : Str // check s = true } :=
  if h : check s = true then .ok ⟨s, h⟩ else .error (.toolContractError code)

/-- An integer from 1 to `most`. -/
def bounded (most : Int) (value : Json) (code : String) :
    Except PyError { n : Int // 1 ≤ n ∧ n ≤ most } :=
  match value with
  | .int n => if h : 1 ≤ n ∧ n ≤ most then .ok ⟨n, h⟩ else .error (.toolContractError code)
  | _ => .error (.toolContractError code)

def boolean (value : Json) (code : String) : Except PyError Bool :=
  match value with
  | .bool b => .ok b
  | _ => .error (.toolContractError code)

variable [PythonText]

/-- A list of at most `most` texts without repetitions. -/
def foldItems (most : Nat) (allowed : Str → Bool) (items : List Json) (code : String) :
    Except PyError (List Str) := do
  let folded ← items.mapM foldItem
  require (folded.length ≤ most ∧ folded.Nodup ∧ folded.all allowed) (.toolContractError code)
  .ok folded

def ApprovalRule.agrees (rule : ApprovalRule) (conditions : List Str) : Bool :=
  (rule = .conditional) = (conditions ≠ [])

/-- `ToolDescriptor.__post_init__`. -/
def postInit (a : DescriptorArgs) : Except PyError ToolDescriptor := do
  let toolId ← checked isToolId (fold a.toolId) "tool_id_invalid"
  let skillId ← checked isSkillId (fold a.skillId) "skill_id_invalid"
  let contractVersion ← bounded 65535 a.contractVersion "contract_version_invalid"
  let purpose ← checked (fun s => s ≠ [] && s.length ≤ 500) (squeeze (strip a.purpose))
    "purpose_invalid"
  let effect ← member Effect.value Effect.all a.effect "effect_invalid"
  let approvalRule ← member ApprovalRule.value ApprovalRule.all a.approvalRule
    "approval_rule_invalid"
  let approvalConditions ← foldItems 2 (· ∈ approvalConditionIds) a.approvalConditions
    "approval_condition_invalid"
  require (approvalRule.agrees approvalConditions)
    (.toolContractError "approval_condition_mismatch")
  let sensitivity ← member Sensitivity.value Sensitivity.all a.sensitivity "sensitivity_invalid"
  let persistence ← member Persistence.value Persistence.all a.persistence "persistence_invalid"
  let idempotency ← member Idempotency.value Idempotency.all a.idempotency "idempotency_invalid"
  let effectCardinality ← member EffectCardinality.value EffectCardinality.all a.effectCardinality
    "effect_cardinality_invalid"
  let interactive ← boolean a.interactive "interactive_invalid"
  let inputSchema ← closedSchema 9 a.inputSchema
  let observationSchema ← closedSchema 9 a.observationSchema
  let inputType ← schemaType (entriesOf inputSchema)
  let observationType ← schemaType (entriesOf observationSchema)
  require (inputType = .object ∧ observationType = .object)
    (.toolContractError "schema_root_not_object")
  let transferableObservationFields ← transferFields toolId observationSchema
    a.transferableObservationFields
  let runtimeDependencies ← foldItems 4 (· ∈ runtimeDependencyIds) a.runtimeDependencies
    "runtime_dependency_invalid"
  let legacyIntents ← foldItems 32 isToolId a.legacyIntents "legacy_intent_invalid"
  let timeoutSeconds ← bounded 120 a.timeoutSeconds "timeout_seconds_invalid"
  let maxResultItems ← bounded 256 a.maxResultItems "max_result_items_invalid"
  let maxObservationChars ← bounded 8000 a.maxObservationChars "max_observation_chars_invalid"
  let descriptor : ToolDescriptor :=
    { toolId := toolId.val, skillId := skillId.val, contractVersion := contractVersion.val
      purpose := purpose.val, inputSchema, observationSchema, effect, approvalRule
      approvalConditions, sensitivity, persistence, idempotency, effectCardinality
      transferableObservationFields, runtimeDependencies, timeoutSeconds := timeoutSeconds.val
      maxResultItems := maxResultItems.val, maxObservationChars := maxObservationChars.val
      legacyIntents, interactive, toolId_valid := toolId.property
      skillId_valid := skillId.property, contractVersion_valid := contractVersion.property }
  let size ← canonicalBytes descriptor.toStorageDict
  require (size ≤ 65536) (.toolContractError "descriptor_size_exceeded")
  .ok descriptor

omit [PythonText] in
def descriptorKeys : List Str :=
  ["tool_id", "skill_id", "contract_version", "purpose", "input_schema", "observation_schema",
    "effect", "approval_rule", "approval_conditions", "sensitivity", "persistence", "idempotency",
    "effect_cardinality", "transferable_observation_fields", "runtime_dependencies",
    "timeout_seconds", "max_result_items", "max_observation_chars", "legacy_intents",
    "interactive"]

omit [PythonText] in
/-- `value[key]` of a key that is there. -/
def valueAt (fields : List (Str × Json)) (key : Str) : Json := (lookup fields key).getD .null

def foldedAt (fields : List (Str × Json)) (key : Str) : Except PyError Str :=
  (pyStr (valueAt fields key)).map fold

/-- `ToolDescriptor.from_mapping`. -/
def fromMapping (value : Json) (skillId : Option Str) : Except PyError ToolDescriptor := do
  require (hasKeys descriptorKeys value) (.toolContractError "descriptor_shape_invalid")
  let fields := entriesOf value
  let declared ← foldItem (valueAt fields "skill_id")
  require (skillId.all fun s => declared = fold s)
    (.toolContractError "descriptor_skill_owner_mismatch")
  let approvalConditions ← itemsAt fields "approval_conditions"
    "descriptor_approval_conditions_invalid"
  let transferableObservationFields ← itemsAt fields "transferable_observation_fields"
    "descriptor_transferable_observation_fields_invalid"
  let runtimeDependencies ← itemsAt fields "runtime_dependencies"
    "descriptor_runtime_dependencies_invalid"
  let legacyIntents ← itemsAt fields "legacy_intents" "descriptor_legacy_intents_invalid"
  let toolId ← pyStr (valueAt fields "tool_id")
  let purpose ← pyStr (valueAt fields "purpose")
  let inputSchema ← freezeJson (valueAt fields "input_schema")
  let observationSchema ← freezeJson (valueAt fields "observation_schema")
  let effect ← foldedAt fields "effect"
  let approvalRule ← foldedAt fields "approval_rule"
  let sensitivity ← foldedAt fields "sensitivity"
  let persistence ← foldedAt fields "persistence"
  let idempotency ← foldedAt fields "idempotency"
  let effectCardinality ← foldedAt fields "effect_cardinality"
  postInit
    { toolId, skillId := declared, contractVersion := valueAt fields "contract_version"
      purpose, inputSchema, observationSchema, effect, approvalRule, approvalConditions
      sensitivity, persistence, idempotency, effectCardinality
      transferableObservationFields := transferableObservationFields.map .inr
      runtimeDependencies, timeoutSeconds := valueAt fields "timeout_seconds"
      maxResultItems := valueAt fields "max_result_items"
      maxObservationChars := valueAt fields "max_observation_chars"
      legacyIntents, interactive := valueAt fields "interactive" }

end Construction

end HardyAI.Skills
