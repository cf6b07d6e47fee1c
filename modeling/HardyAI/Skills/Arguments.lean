import HardyAI.Foundation.Calendar
import HardyAI.Skills.Descriptors

/-! The normal form of the arguments of a tool. -/

open Foundation Foundation.Json

namespace HardyAI.Skills

section Dates

/-- What `fromisoformat` reads, the inverse of `isoformat`. -/
class DateText where
  /-- `datetime.fromisoformat`: no instant where the text has no offset. The microseconds since
  the start of the year 1 may lie outside of the years of UTC. -/
  readDatetime : Str → Option (Option Int)
  /-- `date.fromisoformat`: the day counted from 0. -/
  readDate : Str → Option (Fin 3652059)
  readDatetime_isoUtc (t : Instant) : t.val % 1000000 = 0 →
    readDatetime (isoUtc t) = some (some (t.val : Int))
  readDate_isoDate (day : Fin 3652059) : readDate (isoDate day) = some day

/-- The texts that `isoformat` writes, and no others. -/
@[reducible] def plainDates : DateText where
  readDatetime s := (readIsoUtc s).map some
  readDate := readIsoDate
  readDatetime_isoUtc t h := by rw [readIsoUtc_isoUtc h]; rfl
  readDate_isoDate := readIsoDate_isoDate

def endsWith (s after : Str) : Bool := after.isSuffixOf s

/-- The text of an instant of UTC in whole seconds. -/
def secondsText (t : Instant) : Str :=
  let normalized := isoUtc ⟨t.val - t.val % 1000000, t.floor_lt⟩
  if endsWith normalized "+00:00" then normalized.take (normalized.length - 6) ++ text "Z"
  else normalized

variable [DateText]

def normalizeDatetime (value : Str) : Except PyError Str :=
  let stripped := strip value
  let raw := if endsWith stripped "Z" then stripped.dropLast ++ text "+00:00" else stripped
  match DateText.readDatetime raw with
  | none => .error (.toolContractError "arguments_datetime_invalid")
  | some none => .error (.toolContractError "arguments_datetime_timezone_missing")
  | some (some micros) =>
    if h : 0 ≤ micros ∧ micros < maxMicros then .ok (secondsText ⟨micros.toNat, toNat_lt_maxMicros h⟩)
    else .error .overflowError

def normalizeDate (value : Str) : Except PyError Str :=
  match DateText.readDate value with
  | none => .error (.toolContractError "arguments_date_invalid")
  | some day => .ok (isoDate day)

end Dates

section Values

variable [PythonText]

def requiredOf (schema : List (Str × Json)) : List Json :=
  match lookup schema "required" with
  | some (.arr required) => required
  | _ => []

/-- `int(schema.get(key, default))` of a closed schema. -/
def bound (schema : List (Str × Json)) (key : Str) (default : Int) : Int :=
  (intOr schema key default).getD default

def constMatches (schema : List (Str × Json)) (value : Json) : Except PyError Unit :=
  match lookup schema "const" with
  | none => .ok ()
  | some const => do
    let found ← canonicalJson value
    let expected ← canonicalJson const
    require (found = expected) (.toolContractError "arguments_const_mismatch")

def enumMatches (schema : List (Str × Json)) (value : Json) : Except PyError Unit :=
  match lookup schema "enum" with
  | none => .ok ()
  | some (.arr items) => do
    let allowed ← items.mapM canonicalJson
    let found ← canonicalJson value
    require (found ∈ allowed) (.toolContractError "arguments_enum_mismatch")
  | some _ => .error .typeError

def validateScalarEnum (schema : List (Str × Json)) (value : Json) : Except PyError Unit := do
  constMatches schema value
  enumMatches schema value

/-- The result has no element twice, where the schema says so. -/
def uniqueItems (schema : List (Str × Json)) (result : List Json) : Except PyError Unit :=
  if (lookup schema "uniqueItems").any truthy then do
    let serialized ← result.mapM canonicalJson
    require serialized.Nodup (.toolContractError "arguments_array_duplicate")
  else .ok ()

def requiredGiven (schema fields : List (Str × Json)) : Bool :=
  (requiredOf schema).all fun r => fields.any fun p => r = .str p.1

def countValid (schema fields : List (Str × Json)) : Bool :=
  bound schema "minProperties" 0 ≤ fields.length &&
    (fields.length : Int) ≤ bound schema "maxProperties" (propertiesOf schema).length

def sizeValid (schema : List (Str × Json)) (items : List Json) : Bool :=
  bound schema "minItems" 0 ≤ items.length && (items.length : Int) ≤ bound schema "maxItems" 0

def belowMinimum (schema : List (Str × Json)) (value : Json) : Except PyError Bool :=
  match lookup schema "minimum" with
  | some minimum => lessThan value minimum
  | none => .ok false

def aboveMaximum (schema : List (Str × Json)) (value : Json) : Except PyError Bool :=
  match lookup schema "maximum" with
  | some maximum => lessThan maximum value
  | none => .ok false

/-- The bounds, which an integer and a number have. -/
def withinBounds (t : SchemaType) (schema : List (Str × Json)) (value : Json) :
    Except PyError Unit :=
  if t = .integer ∨ t = .number then do
    let below ← belowMinimum schema value
    require (!below) (.toolContractError "arguments_number_out_of_range")
    let above ← aboveMaximum schema value
    require (!above) (.toolContractError "arguments_number_out_of_range")
  else .ok ()

/-- `isinstance` for the types without members. -/
def hasType (t : SchemaType) (value : Json) : Except PyError Bool :=
  match t, value with
  | .integer, .int _ | .boolean, .bool _ | .null, .null => .ok true
  | .number, value => finiteNumber value
  | _, _ => .ok false

/-- A value of the type as it is. -/
def normalizeScalar (t : SchemaType) (schema : List (Str × Json)) (value : Json) :
    Except PyError Json := do
  let matching ← hasType t value
  require matching (.toolContractError "arguments_type_mismatch")
  withinBounds t schema value
  validateScalarEnum schema value
  .ok value

variable [DateText]

def formatted (schema : List (Str × Json)) (value : Str) : Except PyError Str :=
  if lookup schema "format" = some (.str "date-time") then normalizeDatetime value
  else if lookup schema "format" = some (.str "date") then normalizeDate value
  else .ok value

def normalizeString (schema : List (Str × Json)) (value : Str) : Except PyError Json := do
  let normalized ← formatted schema (PythonText.nfc value)
  require (bound schema "minLength" 0 ≤ normalized.length ∧
    (normalized.length : Int) ≤ bound schema "maxLength" 0)
    (.toolContractError "arguments_string_size_invalid")
  validateScalarEnum schema (.str normalized)
  .ok (.str normalized)

mutual

/-- `_normalize_value`. -/
def normalizeValue (schema : Json) : Json → Except PyError Json
  | .obj fields => do
    let t ← schemaType (entriesOf schema)
    require (t = .object) (.toolContractError "arguments_type_mismatch")
    let properties := propertiesOf (entriesOf schema)
    require (fields.all fun p => (lookup properties p.1).isSome)
      (.toolContractError "arguments_unknown_field")
    require (requiredGiven (entriesOf schema) fields)
      (.toolContractError "arguments_required_field_missing")
    require (countValid (entriesOf schema) fields)
      (.toolContractError "arguments_property_count_invalid")
    let result ← normalizeMembers properties fields
    validateScalarEnum (entriesOf schema) (.obj result)
    let frozen ← freezeFields result
    .ok (.obj frozen)
  | .arr items => do
    let t ← schemaType (entriesOf schema)
    require (t = .array) (.toolContractError "arguments_type_mismatch")
    require (sizeValid (entriesOf schema) items) (.toolContractError "arguments_array_size_invalid")
    let result ← normalizeElements ((lookup (entriesOf schema) "items").getD .null) items
    uniqueItems (entriesOf schema) result
    validateScalarEnum (entriesOf schema) (.arr result)
    .ok (.arr result)
  | .str s => do
    let t ← schemaType (entriesOf schema)
    require (t = .string) (.toolContractError "arguments_type_mismatch")
    normalizeString (entriesOf schema) s
  | .null => do
    let t ← schemaType (entriesOf schema)
    normalizeScalar t (entriesOf schema) .null
  | .bool b => do
    let t ← schemaType (entriesOf schema)
    normalizeScalar t (entriesOf schema) (.bool b)
  | .int n => do
    let t ← schemaType (entriesOf schema)
    normalizeScalar t (entriesOf schema) (.int n)
  | .float bits => do
    let t ← schemaType (entriesOf schema)
    normalizeScalar t (entriesOf schema) (.float bits)

def normalizeElements (schema : Json) : List Json → Except PyError (List Json)
  | [] => .ok []
  | x :: xs => do
    let y ← normalizeValue schema x
    let ys ← normalizeElements schema xs
    .ok (y :: ys)

def normalizeMembers (properties : List (Str × Json)) :
    List (Str × Json) → Except PyError (List (Str × Json))
  | [] => .ok []
  | (k, x) :: xs => do
    let y ← normalizeValue ((lookup properties k).getD .null) x
    let ys ← normalizeMembers properties xs
    .ok ((k, y) :: ys)

end

def ToolDescriptor.validateArguments (d : ToolDescriptor) (arguments : Json) :
    Except PyError (List (Str × Json)) := do
  let normalized ← normalizeValue d.inputSchema arguments
  match normalized with
  | .obj fields => .ok fields
  | _ => .error (.toolContractError "arguments_root_not_object")

end Values

end HardyAI.Skills
