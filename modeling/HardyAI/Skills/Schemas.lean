import HardyAI.Skills.OperationIdentity

/-! Closed schemas and the values that they accept. -/

open Foundation Foundation.Json

namespace HardyAI.Skills

section Numbers

/-- A number times `2 ^ 1074`, which is whole for every finite float. -/
def scaled : Json → Option Int
  | .bool b => some (if b then 2 ^ 1074 else 0)
  | .int n => some (n * 2 ^ 1074)
  | .float bits =>
    if finite bits then
      let exponent := (bits >>> 52 &&& 0x7FF).toNat
      let fraction := (bits &&& 0xFFFFFFFFFFFFF).toNat
      let magnitude : Int :=
        if exponent = 0 then fraction else (2 ^ 52 + fraction) * 2 ^ (exponent - 1)
      some (if bits.msb then -magnitude else magnitude)
    else none
  | .null | .str _ | .arr _ | .obj _ => none

/-- `a < b`. -/
def lessThan (a b : Json) : Except PyError Bool :=
  match scaled a, scaled b with
  | some x, some y => .ok (x < y)
  | _, _ => .error .typeError

/-- `isinstance(value, (int, float)) and math.isfinite(float(value))`, of no boolean. -/
def finiteNumber : Json → Except PyError Bool
  | .int n => if 2 ^ 1024 - 2 ^ 970 ≤ n.natAbs then .error .overflowError else .ok true
  | .float bits => .ok (finite bits)
  | .null | .bool _ | .str _ | .arr _ | .obj _ => .ok false

end Numbers

section Closed

inductive SchemaType
  | object | array | string | integer | number | boolean | null
  deriving DecidableEq

def SchemaType.value : SchemaType → Str
  | .object => "object"
  | .array => "array"
  | .string => "string"
  | .integer => "integer"
  | .number => "number"
  | .boolean => "boolean"
  | .null => "null"

def schemaTypes : List SchemaType := [.object, .array, .string, .integer, .number, .boolean, .null]

def schemaType (schema : List (Str × Json)) : Except PyError SchemaType :=
  match lookup schema "type" with
  | some (.str s) =>
    match schemaTypes.find? fun t => t.value = s with
    | some t => .ok t
    | none => .error (.toolContractError "schema_type_invalid")
  | some (.arr _) | some (.obj _) => .error .typeError
  | _ => .error (.toolContractError "schema_type_invalid")

def commonKeys : List Str := ["type", "description", "enum", "const"]

def SchemaType.keys : SchemaType → List Str
  | .object => ["properties", "required", "additionalProperties", "minProperties", "maxProperties"]
  | .array => ["items", "minItems", "maxItems", "uniqueItems"]
  | .string => ["minLength", "maxLength", "format"]
  | .integer | .number => ["minimum", "maximum"]
  | .boolean | .null => []

def keysAllowed (t : SchemaType) (schema : List (Str × Json)) : Bool :=
  schema.all fun p => p.1 ∈ commonKeys ++ t.keys

def descriptionValid : Option Json → Bool
  | none | some .null => true
  | some (.str s) => strip s ≠ [] && s.length ≤ 500
  | some _ => false

/-- `schema.get(key, default)`, which is refused unless it is an integer and no boolean. -/
def intOr (schema : List (Str × Json)) (key : Str) (default : Int) : Option Int :=
  match lookup schema key with
  | none => some default
  | some (.int n) => some n
  | some _ => none

def itemsAt (fields : List (Str × Json)) (key : Str) (code : String) :
    Except PyError (List Json) :=
  match lookup fields key with
  | some (.arr items) => .ok items
  | _ => .error (.toolContractError code)

def objectAt (fields : List (Str × Json)) (key : Str) (code : String) :
    Except PyError (List (Str × Json)) :=
  match lookup fields key with
  | some (.obj members) => .ok members
  | _ => .error (.toolContractError code)

/-- `_FORBIDDEN_SCHEMA_FIELD_PARTS`. -/
def forbiddenParts : List Str :=
  ["api_key", "password", "secret", "credential", "access_token", "execution_ref", "storage_ref",
    "provider_setting", "principal", "authorization", "user_id", "agent_id", "channel_id",
    "guild_id"]

/-- `part in s`. -/
def hasPart (s part : Str) : Bool := s.tails.any fun rest => startsWith rest part

variable [PythonText]

/-- The items of the enumeration, where the schema has one. -/
def enumItems (schema : List (Str × Json)) : Except PyError (Option (List Json)) :=
  match lookup schema "enum" with
  | none | some .null => .ok none
  | some (.arr items) => do
    require (items ≠ [] ∧ items.length ≤ 64) (.toolContractError "schema_enum_invalid")
    let serialized ← items.mapM canonicalJson
    require serialized.Nodup (.toolContractError "schema_enum_duplicate")
    .ok (some items)
  | some _ => .error (.toolContractError "schema_enum_invalid")

def isText : Json → Bool
  | .str _ => true
  | _ => false

def requiredValid (properties : List (Str × Json)) (required : List Json) : Bool :=
  required.all isText && decide required.Nodup &&
    required.all fun r => properties.any fun p => r = .str p.1

/-- The schemas of the properties that have a name. -/
def closedProperties (close : Json → Except PyError Json) (properties : List (Str × Json)) :
    Except PyError (List (Str × Json)) :=
  (properties.filter fun p => p.1 ≠ []).mapM fun p => do
    let child ← close p.2
    .ok (p.1, child)

def propertyBoundsValid (schema properties : List (Str × Json)) : Bool :=
  match intOr schema "minProperties" 0, intOr schema "maxProperties" properties.length with
  | some low, some high => 0 ≤ low && low ≤ high && high ≤ properties.length
  | _, _ => false

def protectedName (name : Str) : Bool :=
  forbiddenParts.any fun part => hasPart (PythonText.casefold name) part

def closedObject (close : Json → Except PyError Json) (schema : List (Str × Json)) :
    Except PyError (List (Str × Json)) := do
  let properties ← objectAt schema "properties" "schema_properties_invalid"
  require (properties.length ≤ 64) (.toolContractError "schema_properties_invalid")
  require (lookup schema "additionalProperties" = some (.bool false))
    (.toolContractError "schema_not_closed")
  let required ← itemsAt schema "required" "schema_required_invalid"
  require (requiredValid properties required) (.toolContractError "schema_required_invalid")
  require (propertyBoundsValid schema properties)
    (.toolContractError "schema_property_bounds_invalid")
  let closed ← closedProperties close properties
  require (closed.length = properties.length) (.toolContractError "schema_property_name_invalid")
  require (closed.all fun p => !protectedName p.1)
    (.toolContractError "schema_protected_field_invalid")
  .ok (setField (setField schema "properties" (.obj closed)) "required" (.arr required))

def arrayBoundsValid (schema : List (Str × Json)) : Bool :=
  match intOr schema "minItems" 0, lookup schema "maxItems" with
  | some low, some (.int high) => 0 ≤ low && max 1 low ≤ high && high ≤ 256
  | _, _ => false

def isBool : Json → Bool
  | .bool _ => true
  | _ => false

def closedArray (close : Json → Except PyError Json) (schema : List (Str × Json)) :
    Except PyError (List (Str × Json)) :=
  match lookup schema "items" with
  | none => .error (.toolContractError "schema_array_items_missing")
  | some items => do
    require (arrayBoundsValid schema) (.toolContractError "schema_array_bounds_invalid")
    require ((lookup schema "uniqueItems").all isBool)
      (.toolContractError "schema_unique_items_invalid")
    let closed ← close items
    .ok (setField schema "items" closed)

omit [PythonText] in
/-- `max(len(text) for text in texts)`. -/
def longest (texts : List Str) : Nat := (texts.map List.length).foldl max 0

/-- `schema.get("maxLength")`, for which an enumeration stands in. -/
def maxLength (schema : List (Str × Json)) (enum : Option (List Json)) :
    Except PyError (Option Json × List (Str × Json)) :=
  match (lookup schema "maxLength").filter (· ≠ .null), enum with
  | none, some items => do
    let texts ← items.mapM pyStr
    .ok (some (.int (longest texts)), setField schema "maxLength" (.int (longest texts)))
  | maximum, _ => .ok (maximum, schema)

def stringBoundsValid (schema : List (Str × Json)) (maximum : Option Json) : Bool :=
  match intOr schema "minLength" 0, maximum with
  | some low, some (.int high) => 0 ≤ low && max 1 low ≤ high && high ≤ 8000
  | _, _ => false

def formatValid : Option Json → Except PyError Bool
  | none | some .null => .ok true
  | some (.str s) => .ok (decide (s ∈ ([text "date-time", "date", "uri"] : List Str)))
  | some (.arr _) | some (.obj _) => .error .typeError
  | some _ => .ok false

def closedString (schema : List (Str × Json)) (enum : Option (List Json)) :
    Except PyError (List (Str × Json)) := do
  let bounded ← maxLength schema enum
  require (stringBoundsValid schema bounded.1) (.toolContractError "schema_string_bounds_invalid")
  let valid ← formatValid (lookup schema "format")
  require valid (.toolContractError "schema_string_format_invalid")
  .ok bounded.2

def isNumber : Json → Bool
  | .int _ | .float _ => true
  | _ => false

def numberBoundsValid (low high : Json) : Except PyError Unit := do
  require (isNumber low && isNumber high) (.toolContractError "schema_number_bounds_invalid")
  let lowFinite ← finiteNumber low
  require lowFinite (.toolContractError "schema_number_bounds_invalid")
  let highFinite ← finiteNumber high
  require highFinite (.toolContractError "schema_number_bounds_invalid")
  let crossed ← lessThan high low
  require (!crossed) (.toolContractError "schema_number_bounds_invalid")

def closedNumber (schema : List (Str × Json)) (enum : Option (List Json)) :
    Except PyError (List (Str × Json)) :=
  match lookup schema "minimum", lookup schema "maximum" with
  | some low, some high => do
    numberBoundsValid low high
    .ok schema
  | _, _ => do
    require enum.isSome (.toolContractError "schema_number_bounds_missing")
    .ok schema

/-- The length of the canonical text in UTF-8. -/
def canonicalBytes (value : Json) : Except PyError Nat := do
  let canonical ← canonicalJson value
  let bytes ← utf8 canonical
  .ok bytes.length

/-- What the checks for its type leave of a schema. -/
def closedBody (close : Json → Except PyError Json) (t : SchemaType) (schema : List (Str × Json))
    (enum : Option (List Json)) : Except PyError (List (Str × Json)) :=
  match t with
  | .object => closedObject close schema
  | .array => closedArray close schema
  | .string => closedString schema enum
  | .integer | .number => closedNumber schema enum
  | .boolean | .null => .ok schema

/-- `_closed_schema` at a place above which at most `levels` more are allowed. -/
def closedSchema : Nat → Json → Except PyError Json
  | 0, _ => .error (.toolContractError "schema_depth_exceeded")
  | levels + 1, .obj schema => do
    let t ← schemaType schema
    require (keysAllowed t schema) (.toolContractError "schema_keyword_unsupported")
    require (descriptionValid (lookup schema "description"))
      (.toolContractError "schema_description_invalid")
    let enum ← enumItems schema
    let normalized ← closedBody (closedSchema levels) t schema enum
    let frozen ← freezeFields normalized
    let size ← canonicalBytes (.obj frozen)
    require (size ≤ 32768) (.toolContractError "schema_size_exceeded")
    .ok (.obj frozen)
  | _ + 1, _ => .error (.toolContractError "schema_not_object")

end Closed

end HardyAI.Skills
