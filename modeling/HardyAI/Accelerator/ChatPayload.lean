import HardyAI.Foundation.Pointer
import HardyAI.Skills.CanonicalForm

/-! The chat requests that are forwarded to the model server, rebuilt field by field. -/

open Foundation Foundation.Json HardyAI.Skills

namespace HardyAI.Accelerator

section Refusals

/-- What a request is answered with instead, or what is raised over it. -/
inductive ChatError
  | httpException (statusCode : Nat) (detail : String)
  | raised (e : PyError)
  deriving DecidableEq

abbrev Checked (α : Type) := Except ChatError α

def badRequest {α : Type} (detail : String) : Checked α := .error (.httpException 400 detail)

def demand (b : Bool) (detail : String) : Checked Unit := if b then .ok () else badRequest detail

def attempt {α : Type} (x : Except PyError α) : Checked α := x.mapError .raised

theorem demand_eq_ok {b : Bool} {detail : String} {u : Unit} :
    demand b detail = .ok u ↔ b = true := by
  unfold demand badRequest
  cases b <;> simp

theorem demand_of {b : Bool} (h : b = true) (detail : String) : demand b detail = .ok () :=
  demand_eq_ok.2 h

theorem attempt_eq_ok {α : Type} {x : Except PyError α} {a : α} :
    attempt x = .ok a ↔ x = .ok a := by
  cases x <;> simp [attempt, Except.mapError]

theorem checked_bind_eq_ok {α β : Type} {x : Checked α} {f : α → Checked β} {b : β} :
    x >>= f = .ok b ↔ ∃ a, x = .ok a ∧ f a = .ok b := by
  cases x <;> simp [bind, Except.bind]

theorem checked_ok_bind {α β : Type} (a : α) (f : α → Checked β) :
    (.ok a : Checked α) >>= f = f a := rfl

theorem checked_map_eq_ok {α β : Type} {x : Checked α} {f : α → β} {b : β} :
    x.map f = .ok b ↔ ∃ a, x = .ok a ∧ f a = b := by
  cases x <;> simp [Except.map]

end Refusals

section Fields

abbrev ChatFields := List (Str × Json)

/-- No field of `d` is none of `allowed`. -/
def keysWithin (d : ChatFields) (allowed : List Str) : Bool := d.all fun p => p.1 ∈ allowed

/-- A field of a text, which is left out where the text is empty. -/
def textField (key s : Str) : ChatFields := if s = [] then [] else [(key, .str s)]

/-- A field of a value, which is left out where there is none. -/
def optionalField (key : Str) (value : Option Json) : ChatFields :=
  value.toList.map fun v => (key, v)

def objectOf (value : Option Json) (detail : String) : Checked ChatFields :=
  match value with
  | some (.obj fields) => .ok fields
  | _ => badRequest detail

def isLetter (c : CodePoint) : Bool :=
  (0x41 ≤ c.val && c.val ≤ 0x5A) || (0x61 ≤ c.val && c.val ≤ 0x7A)

/-- The pattern `[A-Za-z][A-Za-z0-9_.-]{0,127}` of a function's name. -/
def isFunctionName : Str → Bool
  | [] => false
  | c :: cs => isLetter c && cs.length ≤ 127 && cs.all fun x =>
      isLetter x || (0x30 ≤ x.val && x.val ≤ 0x39) || x.val = 0x5F || x.val = 0x2E || x.val = 0x2D

variable [PythonText]

/-- `str(d.get(key) or "").strip()`. -/
def strippedText (d : ChatFields) (key : Str) : Checked Str :=
  (attempt (textOr (lookup d key) [])).map strip

end Fields

section Calls

def callsDetail : String := "accelerator_chat_tool_calls_invalid"

structure ChatCall where
  name : Str
  arguments : ChatFields
  index : Option Int
  id : Str
  callType : Str
  deriving DecidableEq

def ChatCall.function (c : ChatCall) : ChatFields :=
  ("name", .str c.name) :: ("arguments", .obj c.arguments) ::
    optionalField "index" (c.index.map .int)

def ChatCall.fields (c : ChatCall) : ChatFields :=
  ("function", .obj c.function) :: (textField "id" c.id ++ textField "type" c.callType)

def ChatCall.toJson (c : ChatCall) : Json := .obj c.fields

/-- The index of a call, which no truth value is taken for. -/
def callIndex : Option Json → Checked (Option Int)
  | none | some .null => .ok none
  | some (.int n) => do
    demand (0 ≤ n && n ≤ 31) callsDetail
    .ok (some n)
  | some _ => badRequest callsDetail

variable [PythonText]

/-- One call of `_sanitize_chat_tool_calls`. The order of the keys does not change the length of
the dump. -/
def sanitizeChatToolCall (rawCall : Json) : Checked ChatCall := do
  let call ← objectOf (some rawCall) callsDetail
  demand (keysWithin call ["id", "type", "function"]) callsDetail
  let function ← objectOf (lookup call "function") callsDetail
  demand (keysWithin function ["index", "name", "arguments"]) callsDetail
  let name ← strippedText function "name"
  demand (isFunctionName name) callsDetail
  let arguments ← objectOf (lookup function "arguments") callsDetail
  let encoded ← attempt (dump true (.obj arguments))
  demand (encoded.length ≤ 65536) callsDetail
  let index ← callIndex (lookup function "index")
  let id ← strippedText call "id"
  demand (id.length ≤ 160) callsDetail
  let callType ← strippedText call "type"
  demand (callType = [] || callType = "function") callsDetail
  .ok ⟨name, arguments, index, id, callType⟩

def sanitizeChatToolCalls : Json → Checked (List ChatCall)
  | .arr calls => do
    demand (1 ≤ calls.length && calls.length ≤ 32) callsDetail
    calls.mapM sanitizeChatToolCall
  | _ => badRequest callsDetail

end Calls

section Tools

def toolsDetail : String := "accelerator_chat_tools_invalid"

def toolDetail : String := "accelerator_chat_tool_invalid"

structure ChatTool where
  name : Str
  description : Str
  parameters : ChatFields
  deriving DecidableEq

def ChatTool.function (t : ChatTool) : ChatFields :=
  [("name", .str t.name), ("description", .str t.description), ("parameters", .obj t.parameters)]

def ChatTool.fields (t : ChatTool) : ChatFields :=
  [("type", .str "function"), ("function", .obj t.function)]

def ChatTool.toJson (t : ChatTool) : Json := .obj t.fields

/-- A description within its bound. -/
def descriptionOf : Option Json → Checked Str
  | some (.str s) => do
    demand (s.length ≤ 2000) toolDetail
    .ok s
  | _ => badRequest toolDetail

def isObject : Option Json → Bool
  | some (.obj _) => true
  | _ => false

variable [PythonText]

/-- One tool of `_sanitize_chat_tools`, behind the names and the characters of the ones before it,
with the characters up to its own. -/
def sanitizeChatTool (names : List Str) (encodedChars : Nat) (tool : Json) :
    Checked (ChatTool × Nat) := do
  let fields ← objectOf (some tool) toolDetail
  demand (keysWithin fields ["type", "function"] && (lookup fields "function").isSome &&
    lookup fields "type" = some (.str "function")) toolDetail
  let function ← objectOf (lookup fields "function") toolDetail
  demand (keysWithin function ["name", "description", "parameters"]) toolDetail
  let name ← strippedText function "name"
  demand (isFunctionName name && name ∉ names) toolDetail
  let description ← descriptionOf (lookup function "description")
  let parameters ← objectOf (lookup function "parameters") toolDetail
  demand (lookup parameters "type" = some (.str "object") &&
    isObject (lookup parameters "properties")) toolDetail
  let normalized : ChatTool := ⟨name, description, parameters⟩
  let encoded ← attempt (dump true normalized.toJson)
  demand (encodedChars + encoded.length ≤ 262144) toolsDetail
  .ok (normalized, encodedChars + encoded.length)

def sanitizeToolsFrom (names : List Str) (encodedChars : Nat) : List Json → Checked (List ChatTool)
  | [] => .ok []
  | tool :: rest => do
    let (normalized, chars) ← sanitizeChatTool names encodedChars tool
    let others ← sanitizeToolsFrom (normalized.name :: names) chars rest
    .ok (normalized :: others)

def sanitizeChatTools : Option Json → Checked (List ChatTool)
  | some (.arr tools) => do
    demand (1 ≤ tools.length && tools.length ≤ 48) toolsDetail
    sanitizeToolsFrom [] 0 tools
  | _ => badRequest toolsDetail

end Tools

section Messages

def messageDetail : String := "accelerator_chat_message_invalid"

structure ChatMessage where
  role : Str
  content : Str
  thinking : Option Str
  toolCalls : Option (List ChatCall)
  toolName : Option Str
  toolCallId : Str
  deriving DecidableEq

def ChatMessage.fields (m : ChatMessage) : ChatFields :=
  ("role", .str m.role) :: ("content", .str m.content) ::
    (optionalField "thinking" (m.thinking.map .str) ++
      (optionalField "tool_calls" (m.toolCalls.map fun calls => .arr (calls.map ChatCall.toJson)) ++
        (optionalField "tool_name" (m.toolName.map .str) ++
          textField "tool_call_id" m.toolCallId)))

def ChatMessage.toJson (m : ChatMessage) : Json := .obj m.fields

/-- What the contents and thinkings of the messages count up to. -/
def ChatMessage.chars (m : ChatMessage) : Nat := m.content.length + (m.thinking.getD []).length

def messageFields (role : Str) : List Str :=
  if role = "assistant" then ["role", "content", "tool_calls", "thinking"]
  else if role = "tool" then ["role", "content", "tool_name", "tool_call_id"]
  else ["role", "content"]

def chatRoles : List Str := ["system", "user", "assistant", "tool"]

/-- What is read of the messages of one role. -/
def onlyFor {α : Type} (owner role : Str) (default : α) (read : Checked α) : Checked α :=
  if role = owner then read else .ok default

/-- `message.get("content", "")`, which is to be a text. -/
def contentOf : Option Json → Checked Str
  | none => .ok []
  | some (.str s) => .ok s
  | some _ => badRequest messageDetail

def thinkingOf : Option Json → Checked (Option Str)
  | none | some .null => .ok none
  | some (.str s) => do
    demand (s.length ≤ 100000) messageDetail
    .ok (some s)
  | some _ => badRequest messageDetail

variable [PythonText]

def toolCallsOf : Option Json → Checked (Option (List ChatCall))
  | none | some .null => .ok none
  | some calls => (sanitizeChatToolCalls calls).map some

def toolIdentity (fields : ChatFields) : Checked (Option Str × Str) := do
  let toolName ← strippedText fields "tool_name"
  let toolCallId ← strippedText fields "tool_call_id"
  demand (isFunctionName toolName) messageDetail
  demand (toolCallId.length ≤ 160) messageDetail
  .ok (some toolName, toolCallId)

def roleOf (fields : ChatFields) : Checked Str :=
  (strippedText fields "role").map PythonText.casefold

/-- One message, behind the characters of the ones before it. The total is compared before the
thinking of the message is added to it. -/
def sanitizeMessage (totalContentChars : Nat) (message : Json) : Checked (ChatMessage × Nat) := do
  let fields ← objectOf (some message) messageDetail
  let role ← roleOf fields
  demand (keysWithin fields (messageFields role) && role ∈ chatRoles) messageDetail
  let content ← contentOf (lookup fields "content")
  let total := totalContentChars + content.length
  demand (total ≤ 500000) "accelerator_chat_content_invalid"
  let thinking ← onlyFor "assistant" role none (thinkingOf (lookup fields "thinking"))
  let toolCalls ← onlyFor "assistant" role none (toolCallsOf (lookup fields "tool_calls"))
  let identity ← onlyFor "tool" role (none, []) (toolIdentity fields)
  .ok (⟨role, content, thinking, toolCalls, identity.1, identity.2⟩,
    total + (thinking.getD []).length)

def sanitizeMessagesFrom (totalContentChars : Nat) : List Json → Checked (List ChatMessage)
  | [] => .ok []
  | message :: rest => do
    let (sanitized, total) ← sanitizeMessage totalContentChars message
    let others ← sanitizeMessagesFrom total rest
    .ok (sanitized :: others)

def sanitizeMessages : Option Json → Checked (List ChatMessage)
  | some (.arr messages) => do
    demand (1 ≤ messages.length && messages.length ≤ 128) "accelerator_chat_messages_invalid"
    sanitizeMessagesFrom 0 messages
  | _ => badRequest "accelerator_chat_messages_invalid"

end Messages

section Payload

/-- The mode of thinking that is asked for. -/
inductive ThinkMode
  | flag (b : Bool)
  | effort (s : Str)
  deriving DecidableEq

def ThinkMode.toJson : ThinkMode → Json
  | .flag b => .bool b
  | .effort s => .str s

def thinkEfforts : List Str := ["low", "medium", "high", "max"]

/-- The mode that a casefolded text names; the empty one names none. -/
def thinkModeOf (normalized : Str) : Except PyError (Option ThinkMode) :=
  if normalized = [] then .ok none
  else if normalized ∈ [text "1", "true", "yes", "on"] then .ok (some (.flag true))
  else if normalized ∈ [text "0", "false", "no", "off"] then .ok (some (.flag false))
  else if normalized ∈ thinkEfforts then .ok (some (.effort normalized))
  else .error (.valueError "ollama_think_mode_invalid")

def chatKeys : List Str :=
  ["model", "messages", "stream", "format", "options", "keep_alive", "tools", "think"]

/-- The models that a setting names. -/
def modelSet (setting : Str) : List Str := ((splitOn 0x2C setting).map strip).filter (· ≠ [])

/-- `_ALLOWED_MODELS`. -/
def allowedModels (configured candidates : Str) : List Str :=
  modelSet configured ++ modelSet candidates

/-- `options is None or isinstance(options, dict)`. -/
def optionsAccepted : Option Json → Bool
  | none | some .null | some (.obj _) => true
  | some _ => false

variable [PythonText]

/-- `normalize_ollama_think_mode` without a default. -/
def normalizeOllamaThinkMode : Json → Except PyError (Option ThinkMode)
  | .null => .ok none
  | .bool b => .ok (some (.flag b))
  | value => do
    let raw ← pyStr value
    thinkModeOf (PythonText.casefold (strip raw))

/-- The mode of thinking of a request, which is to ask for one where it has the field. -/
def thinkOf (value : Json) : Checked ThinkMode :=
  match normalizeOllamaThinkMode value with
  | .ok (some mode) => .ok mode
  | .ok none => badRequest "accelerator_think_invalid"
  | .error e => if e.isValueError then badRequest "accelerator_think_invalid" else .error (.raised e)

/-- The payload with its mode of thinking, where it has one. -/
def withThink (sanitized : ChatFields) : Option Json → Checked ChatFields
  | none => .ok sanitized
  | some think => do
    let mode ← thinkOf think
    .ok (setField sanitized "think" mode.toJson)

/-- `_ollama_chat_payload`. -/
def ollamaChatPayload (allowed : List Str) (value : ChatFields) : Checked ChatFields := do
  demand (keysWithin value chatKeys && (lookup value "images").isNone)
    "accelerator_ollama_chat_fields_rejected"
  let model ← strippedText value "model"
  demand (model ∈ allowed) "accelerator_model_not_allowed"
  let messages ← sanitizeMessages (lookup value "messages")
  demand (lookup value "stream" = some (.bool false)) "accelerator_streaming_disabled"
  demand (optionsAccepted (lookup value "options")) "accelerator_options_invalid"
  let tools ← sanitizeChatTools (lookup value "tools")
  let kept := value.filter fun p => p.1 ∈ chatKeys
  let sanitized := setField (setField kept "messages" (.arr (messages.map ChatMessage.toJson)))
    "tools" (.arr (tools.map ChatTool.toJson))
  withThink sanitized (lookup value "think")

end Payload

section Lookups

theorem lookup_cons (p : Str × Json) (d : ChatFields) (k : Str) :
    lookup (p :: d) k = if p.1 = k then some p.2 else lookup d k := by
  by_cases h : p.1 = k <;> simp [lookup, h]

theorem lookup_append (d d' : ChatFields) (k : Str) :
    lookup (d ++ d') k = (lookup d k).or (lookup d' k) := by
  simp [lookup, List.find?_append, Option.map_or]

theorem lookup_optionalField (key k : Str) (value : Option Json) :
    lookup (optionalField key value) k = if key = k then value else none := by
  cases value with
  | none => simp [optionalField, lookup]
  | some v => by_cases h : key = k <;> simp [optionalField, lookup, h]

theorem lookup_textField (key k s : Str) :
    lookup (textField key s) k = if key = k ∧ s ≠ [] then some (.str s) else none := by
  by_cases hs : s = [] <;> by_cases h : key = k <;> simp [textField, lookup, hs, h]

theorem keysWithin_cons (p : Str × Json) (d : ChatFields) (allowed : List Str) :
    keysWithin (p :: d) allowed = (decide (p.1 ∈ allowed) && keysWithin d allowed) := rfl

theorem keysWithin_append (d d' : ChatFields) (allowed : List Str) :
    keysWithin (d ++ d') allowed = (keysWithin d allowed && keysWithin d' allowed) :=
  List.all_append

theorem keysWithin_optionalField {key : Str} {allowed : List Str} (value : Option Json)
    (h : value.isSome = true → key ∈ allowed) :
    keysWithin (optionalField key value) allowed = true := by
  cases value with
  | none => rfl
  | some v => simpa [optionalField, keysWithin] using h rfl

theorem keysWithin_textField {key s : Str} {allowed : List Str} (h : s ≠ [] → key ∈ allowed) :
    keysWithin (textField key s) allowed = true := by
  by_cases hs : s = [] <;> simp [textField, keysWithin, hs, h]

theorem ne_nil_of_isFunctionName {s : Str} (h : isFunctionName s = true) : s ≠ [] := by
  intro hnil
  subst hnil
  exact absurd h (by decide)

/-- What a function makes of its own results again, it makes of all of them. -/
theorem mapM_again {α : Type} {f : Json → Checked α} {g : α → Json}
    (hagain : ∀ x y, f x = .ok y → f (g y) = .ok y) {xs : List Json} {ys : List α}
    (h : xs.mapM f = .ok ys) : (ys.map g).mapM f = .ok ys ∧ ys.length = xs.length := by
  induction xs generalizing ys with
  | nil =>
    obtain rfl := Except.ok.inj h
    exact ⟨rfl, rfl⟩
  | cons x xs ih =>
    rw [List.mapM_cons] at h
    obtain ⟨y, hy, h⟩ := checked_bind_eq_ok.1 h
    obtain ⟨rest, hrest, h⟩ := checked_bind_eq_ok.1 h
    obtain rfl := Except.ok.inj h
    obtain ⟨hmap, hlength⟩ := ih hrest
    refine ⟨?_, by rw [List.length_cons, List.length_cons, hlength]⟩
    rw [List.map_cons, List.mapM_cons, hagain x y hy, hmap]
    rfl

variable [PythonText]

/-- A stripped text of a field stands for itself. -/
theorem strippedText_of_text {d : ChatFields} {key s : Str}
    (h : lookup d key = if s ≠ [] then some (.str s) else none) (hs : strip s = s) :
    strippedText d key = .ok s := by
  have htext : textOr (lookup d key) [] = .ok s := by
    rw [h]
    by_cases hnil : s = [] <;> simp [textOr, truthy, pyStr, hnil]
  simp [strippedText, htext, attempt, Except.mapError, Except.map, hs]

theorem strip_of_strippedText {d : ChatFields} {key s : Str} (h : strippedText d key = .ok s) :
    strip s = s := by
  obtain ⟨raw, -, rfl⟩ := checked_map_eq_ok.1 h
  exact strip_strip raw

end Lookups

section CallLaws

theorem ChatCall.lookup_function (c : ChatCall) :
    lookup c.fields "function" = some (.obj c.function) := by
  simp [ChatCall.fields, lookup_cons]

theorem ChatCall.lookup_id (c : ChatCall) :
    lookup c.fields "id" = if c.id ≠ [] then some (.str c.id) else none := by
  have hfunction : text "function" ≠ "id" := by decide
  have htype : text "type" ≠ "id" := by decide
  simp [ChatCall.fields, lookup_cons, lookup_append, lookup_textField, hfunction, htype]

theorem ChatCall.lookup_type (c : ChatCall) :
    lookup c.fields "type" = if c.callType ≠ [] then some (.str c.callType) else none := by
  have hfunction : text "function" ≠ "type" := by decide
  have hid : text "id" ≠ "type" := by decide
  simp [ChatCall.fields, lookup_cons, lookup_append, lookup_textField, hfunction, hid]

theorem ChatCall.lookup_index (c : ChatCall) : lookup c.function "index" = c.index.map .int := by
  have hname : text "name" ≠ "index" := by decide
  have harguments : text "arguments" ≠ "index" := by decide
  simp [ChatCall.function, lookup_cons, lookup_optionalField, hname, harguments]

theorem ChatCall.lookup_name (c : ChatCall) : lookup c.function "name" = some (.str c.name) := by
  simp [ChatCall.function, lookup_cons]

theorem ChatCall.lookup_arguments (c : ChatCall) :
    lookup c.function "arguments" = some (.obj c.arguments) := by
  have hname : text "name" ≠ "arguments" := by decide
  simp [ChatCall.function, lookup_cons, hname]

theorem ChatCall.fields_within (c : ChatCall) :
    keysWithin c.fields ["id", "type", "function"] = true := by
  rw [ChatCall.fields, keysWithin_cons, keysWithin_append, keysWithin_textField fun _ => by simp,
    keysWithin_textField fun _ => by simp]
  simp

theorem ChatCall.function_within (c : ChatCall) :
    keysWithin c.function ["index", "name", "arguments"] = true := by
  rw [ChatCall.function, keysWithin_cons, keysWithin_cons,
    keysWithin_optionalField _ fun _ => by simp]
  simp

theorem callIndex_map {value : Option Json} {index : Option Int} (h : callIndex value = .ok index) :
    callIndex (index.map .int) = .ok index := by
  match value, h with
  | none, h | some .null, h =>
    obtain rfl := Except.ok.inj h
    rfl
  | some (.int n), h =>
    obtain ⟨_, hrange, h⟩ := checked_bind_eq_ok.1 h
    obtain rfl := Except.ok.inj h
    exact checked_bind_eq_ok.2 ⟨_, hrange, rfl⟩

variable [PythonText]

/-- A sanitized call is its own sanitized form. -/
theorem sanitizeChatToolCall_toJson {raw : Json} {c : ChatCall}
    (h : sanitizeChatToolCall raw = .ok c) : sanitizeChatToolCall c.toJson = .ok c := by
  obtain ⟨call, -, h⟩ := checked_bind_eq_ok.1 h
  obtain ⟨_, -, h⟩ := checked_bind_eq_ok.1 h
  obtain ⟨function, -, h⟩ := checked_bind_eq_ok.1 h
  obtain ⟨_, -, h⟩ := checked_bind_eq_ok.1 h
  obtain ⟨name, hname, h⟩ := checked_bind_eq_ok.1 h
  obtain ⟨_, hpattern, h⟩ := checked_bind_eq_ok.1 h
  obtain ⟨arguments, -, h⟩ := checked_bind_eq_ok.1 h
  obtain ⟨encoded, hencoded, h⟩ := checked_bind_eq_ok.1 h
  obtain ⟨_, hlength, h⟩ := checked_bind_eq_ok.1 h
  obtain ⟨index, hindex, h⟩ := checked_bind_eq_ok.1 h
  obtain ⟨id, hid, h⟩ := checked_bind_eq_ok.1 h
  obtain ⟨_, hidLength, h⟩ := checked_bind_eq_ok.1 h
  obtain ⟨callType, htype, h⟩ := checked_bind_eq_ok.1 h
  obtain ⟨_, htypes, h⟩ := checked_bind_eq_ok.1 h
  obtain rfl := Except.ok.inj h
  have hne : name ≠ [] := ne_nil_of_isFunctionName (demand_eq_ok.1 hpattern)
  let c : ChatCall := ⟨name, arguments, index, id, callType⟩
  have hfields : objectOf (some c.toJson) callsDetail = .ok c.fields := rfl
  have hwithin := demand_of c.fields_within callsDetail
  have hfunction : objectOf (lookup c.fields "function") callsDetail = .ok c.function := by
    rw [c.lookup_function]
    rfl
  have hfunctionWithin := demand_of c.function_within callsDetail
  have hnameAgain : strippedText c.function "name" = .ok name :=
    strippedText_of_text (by rw [c.lookup_name, if_pos hne]) (strip_of_strippedText hname)
  have hargumentsAgain : objectOf (lookup c.function "arguments") callsDetail = .ok arguments := by
    rw [c.lookup_arguments]
    rfl
  have hindexAgain : callIndex (lookup c.function "index") = .ok index := by
    rw [c.lookup_index]
    exact callIndex_map hindex
  have hidAgain : strippedText c.fields "id" = .ok id :=
    strippedText_of_text c.lookup_id (strip_of_strippedText hid)
  have htypeAgain : strippedText c.fields "type" = .ok callType :=
    strippedText_of_text c.lookup_type (strip_of_strippedText htype)
  change sanitizeChatToolCall c.toJson = .ok c
  simp only [sanitizeChatToolCall, hfields, hwithin, hfunction, hfunctionWithin, hnameAgain,
    hpattern, hargumentsAgain, hencoded, hlength, hindexAgain, hidAgain, hidLength, htypeAgain,
    htypes, checked_ok_bind]
  rfl

theorem sanitizeChatToolCalls_toJson {value : Json} {calls : List ChatCall}
    (h : sanitizeChatToolCalls value = .ok calls) :
    sanitizeChatToolCalls (.arr (calls.map ChatCall.toJson)) = .ok calls := by
  unfold sanitizeChatToolCalls at h
  split at h
  · next raw =>
    obtain ⟨_, hcount, h⟩ := checked_bind_eq_ok.1 h
    obtain ⟨hagain, hlength⟩ := mapM_again (fun _ _ => sanitizeChatToolCall_toJson) h
    rw [sanitizeChatToolCalls, List.length_map, hlength]
    exact checked_bind_eq_ok.2 ⟨_, hcount, hagain⟩
  · cases h

end CallLaws

section ToolLaws

theorem ChatTool.fields_within (t : ChatTool) :
    (keysWithin t.fields ["type", "function"] && (lookup t.fields "function").isSome &&
      lookup t.fields "type" = some (.str "function")) = true := by
  have htype : text "type" ≠ "function" := by decide
  simp [ChatTool.fields, keysWithin, lookup_cons, htype]

theorem ChatTool.lookup_function (t : ChatTool) :
    lookup t.fields "function" = some (.obj t.function) := by
  have htype : text "type" ≠ "function" := by decide
  simp [ChatTool.fields, lookup_cons, htype]

theorem ChatTool.function_within (t : ChatTool) :
    keysWithin t.function ["name", "description", "parameters"] = true := by
  simp [ChatTool.function, keysWithin]

theorem ChatTool.lookup_name (t : ChatTool) : lookup t.function "name" = some (.str t.name) := by
  simp [ChatTool.function, lookup_cons]

theorem ChatTool.lookup_description (t : ChatTool) :
    lookup t.function "description" = some (.str t.description) := by
  have hname : text "name" ≠ "description" := by decide
  simp [ChatTool.function, lookup_cons, hname]

theorem ChatTool.lookup_parameters (t : ChatTool) :
    lookup t.function "parameters" = some (.obj t.parameters) := by
  have hname : text "name" ≠ "parameters" := by decide
  have hdescription : text "description" ≠ "parameters" := by decide
  simp [ChatTool.function, lookup_cons, hname, hdescription]

theorem descriptionOf_str {value : Option Json} {s : Str} (h : descriptionOf value = .ok s) :
    descriptionOf (some (.str s)) = .ok s := by
  unfold descriptionOf at h
  split at h
  · obtain ⟨_, hlength, h⟩ := checked_bind_eq_ok.1 h
    obtain rfl := Except.ok.inj h
    exact checked_bind_eq_ok.2 ⟨_, hlength, rfl⟩
  · cases h

variable [PythonText]

/-- A sanitized tool is its own sanitized form. -/
theorem sanitizeChatTool_toJson {names : List Str} {chars total : Nat} {raw : Json} {t : ChatTool}
    (h : sanitizeChatTool names chars raw = .ok (t, total)) :
    sanitizeChatTool names chars t.toJson = .ok (t, total) := by
  obtain ⟨fields, -, h⟩ := checked_bind_eq_ok.1 h
  obtain ⟨_, -, h⟩ := checked_bind_eq_ok.1 h
  obtain ⟨function, -, h⟩ := checked_bind_eq_ok.1 h
  obtain ⟨_, -, h⟩ := checked_bind_eq_ok.1 h
  obtain ⟨name, hname, h⟩ := checked_bind_eq_ok.1 h
  obtain ⟨_, hpattern, h⟩ := checked_bind_eq_ok.1 h
  obtain ⟨description, hdescription, h⟩ := checked_bind_eq_ok.1 h
  obtain ⟨parameters, -, h⟩ := checked_bind_eq_ok.1 h
  obtain ⟨_, hschema, h⟩ := checked_bind_eq_ok.1 h
  obtain ⟨encoded, hencoded, h⟩ := checked_bind_eq_ok.1 h
  obtain ⟨_, htotal, h⟩ := checked_bind_eq_ok.1 h
  obtain ⟨rfl, rfl⟩ := Prod.mk.inj (Except.ok.inj h)
  let t : ChatTool := ⟨name, description, parameters⟩
  have hne : name ≠ [] :=
    ne_nil_of_isFunctionName (Bool.and_eq_true_iff.1 (demand_eq_ok.1 hpattern)).1
  have hfields : objectOf (some t.toJson) toolDetail = .ok t.fields := rfl
  have hwithin := demand_of t.fields_within toolDetail
  have hfunction : objectOf (lookup t.fields "function") toolDetail = .ok t.function := by
    rw [t.lookup_function]
    rfl
  have hfunctionWithin := demand_of t.function_within toolDetail
  have hnameAgain : strippedText t.function "name" = .ok name :=
    strippedText_of_text (by rw [t.lookup_name, if_pos hne]) (strip_of_strippedText hname)
  have hdescriptionAgain : descriptionOf (lookup t.function "description") = .ok description := by
    rw [t.lookup_description]
    exact descriptionOf_str hdescription
  have hparameters : objectOf (lookup t.function "parameters") toolDetail = .ok parameters := by
    rw [t.lookup_parameters]
    rfl
  change sanitizeChatTool names chars t.toJson = .ok (t, chars + encoded.length)
  simp only [sanitizeChatTool, hfields, hwithin, hfunction, hfunctionWithin, hnameAgain, hpattern,
    hdescriptionAgain, hparameters, hschema, hencoded, htotal, checked_ok_bind]
  rfl

theorem sanitizeToolsFrom_toJson {raws : List Json} {names : List Str} {chars : Nat}
    {tools : List ChatTool} (h : sanitizeToolsFrom names chars raws = .ok tools) :
    sanitizeToolsFrom names chars (tools.map ChatTool.toJson) = .ok tools ∧
      tools.length = raws.length := by
  induction raws generalizing names chars tools with
  | nil =>
    obtain rfl := Except.ok.inj h
    exact ⟨rfl, rfl⟩
  | cons raw raws ih =>
    obtain ⟨⟨t, total⟩, ht, h⟩ := checked_bind_eq_ok.1 h
    obtain ⟨rest, hrest, h⟩ := checked_bind_eq_ok.1 h
    obtain rfl := Except.ok.inj h
    obtain ⟨hagain, hlength⟩ := ih hrest
    refine ⟨?_, by rw [List.length_cons, List.length_cons, hlength]⟩
    exact checked_bind_eq_ok.2 ⟨_, sanitizeChatTool_toJson ht,
      checked_bind_eq_ok.2 ⟨_, hagain, rfl⟩⟩

theorem sanitizeChatTools_toJson {value : Option Json} {tools : List ChatTool}
    (h : sanitizeChatTools value = .ok tools) :
    sanitizeChatTools (some (.arr (tools.map ChatTool.toJson))) = .ok tools := by
  unfold sanitizeChatTools at h
  split at h
  · next raws =>
    obtain ⟨_, hcount, h⟩ := checked_bind_eq_ok.1 h
    obtain ⟨hagain, hlength⟩ := sanitizeToolsFrom_toJson h
    rw [sanitizeChatTools, List.length_map, hlength]
    exact checked_bind_eq_ok.2 ⟨_, hcount, hagain⟩
  · cases h

end ToolLaws

section MessageLaws

theorem ChatMessage.lookup_role (m : ChatMessage) : lookup m.fields "role" = some (.str m.role) := by
  simp [ChatMessage.fields, lookup_cons]

theorem ChatMessage.lookup_content (m : ChatMessage) :
    lookup m.fields "content" = some (.str m.content) := by
  have hrole : text "role" ≠ "content" := by decide
  simp [ChatMessage.fields, lookup_cons, hrole]

/-- The fields of a message behind its role and its content. -/
theorem ChatMessage.lookup_rest (m : ChatMessage) {k : Str} (hrole : text "role" ≠ k)
    (hcontent : text "content" ≠ k) :
    lookup m.fields k =
      ((if text "thinking" = k then m.thinking.map .str else none).or
        ((if text "tool_calls" = k then
            m.toolCalls.map fun calls => .arr (calls.map ChatCall.toJson) else none).or
          ((if text "tool_name" = k then m.toolName.map .str else none).or
            (if text "tool_call_id" = k ∧ m.toolCallId ≠ [] then some (.str m.toolCallId)
              else none)))) := by
  rw [ChatMessage.fields, lookup_cons, if_neg hrole, lookup_cons, if_neg hcontent, lookup_append,
    lookup_append, lookup_append, lookup_optionalField, lookup_optionalField, lookup_optionalField,
    lookup_textField]

theorem ChatMessage.lookup_thinking (m : ChatMessage) :
    lookup m.fields "thinking" = m.thinking.map .str := by
  rw [m.lookup_rest (by decide) (by decide), if_pos rfl, if_neg (by decide), if_neg (by decide),
    if_neg fun h => absurd h.1 (by decide)]
  simp

theorem ChatMessage.lookup_toolCalls (m : ChatMessage) :
    lookup m.fields "tool_calls" =
      m.toolCalls.map fun calls => .arr (calls.map ChatCall.toJson) := by
  rw [m.lookup_rest (by decide) (by decide), if_neg (by decide), if_pos rfl, if_neg (by decide),
    if_neg fun h => absurd h.1 (by decide)]
  simp

theorem ChatMessage.lookup_toolName (m : ChatMessage) :
    lookup m.fields "tool_name" = m.toolName.map .str := by
  rw [m.lookup_rest (by decide) (by decide), if_neg (by decide), if_neg (by decide), if_pos rfl,
    if_neg fun h => absurd h.1 (by decide)]
  simp

theorem ChatMessage.lookup_toolCallId (m : ChatMessage) :
    lookup m.fields "tool_call_id" =
      if m.toolCallId ≠ [] then some (.str m.toolCallId) else none := by
  rw [m.lookup_rest (by decide) (by decide), if_neg (by decide), if_neg (by decide),
    if_neg (by decide)]
  simp

/-- Only an assistant thinks and calls tools, and only a tool has a name of its own. -/
structure ChatMessage.Shaped (m : ChatMessage) : Prop where
  role : m.role ∈ chatRoles
  thinking : m.thinking.isSome = true → m.role = "assistant"
  toolCalls : m.toolCalls.isSome = true → m.role = "assistant"
  toolName : m.toolName.isSome = true → m.role = "tool"
  toolCallId : m.toolCallId ≠ [] → m.role = "tool"

theorem ChatMessage.Shaped.fields_within {m : ChatMessage} (h : m.Shaped) :
    keysWithin m.fields (messageFields m.role) = true := by
  have hassistant : m.role = "assistant" → text "thinking" ∈ messageFields m.role ∧
      text "tool_calls" ∈ messageFields m.role := fun hrole => by rw [hrole]; decide
  have htool : m.role = "tool" → text "tool_name" ∈ messageFields m.role ∧
      text "tool_call_id" ∈ messageFields m.role := fun hrole => by rw [hrole]; decide
  have hplain : text "role" ∈ messageFields m.role ∧ text "content" ∈ messageFields m.role := by
    unfold messageFields
    split
    · simp
    · split <;> simp
  rw [ChatMessage.fields, keysWithin_cons, keysWithin_cons, keysWithin_append, keysWithin_append,
    keysWithin_append,
    keysWithin_optionalField _ fun hsome => (hassistant (h.thinking (by simpa using hsome))).1,
    keysWithin_optionalField _ fun hsome => (hassistant (h.toolCalls (by simpa using hsome))).2,
    keysWithin_optionalField _ fun hsome => (htool (h.toolName (by simpa using hsome))).1,
    keysWithin_textField fun hne => (htool (h.toolCallId hne)).2]
  simp [hplain]

theorem onlyFor_owner {α : Type} {owner role : Str} {default a : α} {read : Checked α}
    (h : onlyFor owner role default read = .ok a) (hne : a ≠ default) : role = owner := by
  unfold onlyFor at h
  split at h
  · next howner => exact howner
  · exact absurd (Except.ok.inj h).symm hne

theorem onlyFor_again {α : Type} {owner role : Str} {default a : α} {read read' : Checked α}
    (h : onlyFor owner role default read = .ok a) (hread : read = .ok a → read' = .ok a) :
    onlyFor owner role default read' = .ok a := by
  unfold onlyFor at h ⊢
  by_cases howner : role = owner
  · rw [if_pos howner] at h ⊢
    exact hread h
  · rw [if_neg howner] at h ⊢
    exact h

theorem thinkingOf_map {value : Option Json} {thinking : Option Str}
    (h : thinkingOf value = .ok thinking) : thinkingOf (thinking.map .str) = .ok thinking := by
  unfold thinkingOf at h
  split at h
  · obtain rfl := Except.ok.inj h
    rfl
  · obtain rfl := Except.ok.inj h
    rfl
  · obtain ⟨_, hlength, h⟩ := checked_bind_eq_ok.1 h
    obtain rfl := Except.ok.inj h
    exact checked_bind_eq_ok.2 ⟨_, hlength, rfl⟩
  · cases h

theorem chatRoles_plain : ∀ role ∈ chatRoles,
    isAscii role = true ∧ role.map asciiLower = role ∧ strip role = role ∧ role ≠ [] := by
  decide

variable [PythonText]

theorem toolCallsOf_map {value : Option Json} {calls : Option (List ChatCall)}
    (h : toolCallsOf value = .ok calls) :
    toolCallsOf (calls.map fun calls => .arr (calls.map ChatCall.toJson)) = .ok calls := by
  unfold toolCallsOf at h
  split at h
  · obtain rfl := Except.ok.inj h
    rfl
  · obtain rfl := Except.ok.inj h
    rfl
  · obtain ⟨sanitized, hcalls, rfl⟩ := checked_map_eq_ok.1 h
    exact checked_map_eq_ok.2 ⟨_, sanitizeChatToolCalls_toJson hcalls, rfl⟩

theorem roleOf_role {m : ChatMessage} (h : m.role ∈ chatRoles) : roleOf m.fields = .ok m.role := by
  obtain ⟨hascii, hlower, hstrip, hne⟩ := chatRoles_plain m.role h
  have htext : strippedText m.fields "role" = .ok m.role :=
    strippedText_of_text (by rw [m.lookup_role, if_pos hne]) hstrip
  rw [roleOf, htext, Except.map, PythonText.casefold_ascii _ hascii, hlower]

theorem toolIdentity_fields {fields : ChatFields} {name : Option Str} {id : Str} {m : ChatMessage}
    (h : toolIdentity fields = .ok (name, id)) (hname : m.toolName = name) (hid : m.toolCallId = id) :
    toolIdentity m.fields = .ok (name, id) := by
  obtain ⟨toolName, htoolName, h⟩ := checked_bind_eq_ok.1 h
  obtain ⟨toolCallId, htoolCallId, h⟩ := checked_bind_eq_ok.1 h
  obtain ⟨_, hpattern, h⟩ := checked_bind_eq_ok.1 h
  obtain ⟨_, hlength, h⟩ := checked_bind_eq_ok.1 h
  obtain ⟨rfl, rfl⟩ := Prod.mk.inj (Except.ok.inj h)
  have hne : toolName ≠ [] := ne_nil_of_isFunctionName (demand_eq_ok.1 hpattern)
  have hnameAgain : strippedText m.fields "tool_name" = .ok toolName :=
    strippedText_of_text (by rw [m.lookup_toolName, hname, if_pos hne]; rfl)
      (strip_of_strippedText htoolName)
  have hidAgain : strippedText m.fields "tool_call_id" = .ok toolCallId :=
    strippedText_of_text (by rw [m.lookup_toolCallId, hid]) (strip_of_strippedText htoolCallId)
  simp only [toolIdentity, hnameAgain, hidAgain, hpattern, hlength, checked_ok_bind]

/-- A sanitized message has the shape of its role and is its own sanitized form. -/
theorem sanitizeMessage_toJson {chars total : Nat} {raw : Json} {m : ChatMessage}
    (h : sanitizeMessage chars raw = .ok (m, total)) :
    sanitizeMessage chars m.toJson = .ok (m, total) ∧ m.Shaped := by
  obtain ⟨fields, -, h⟩ := checked_bind_eq_ok.1 h
  obtain ⟨role, -, h⟩ := checked_bind_eq_ok.1 h
  obtain ⟨_, hrole, h⟩ := checked_bind_eq_ok.1 h
  obtain ⟨content, -, h⟩ := checked_bind_eq_ok.1 h
  obtain ⟨_, hlength, h⟩ := checked_bind_eq_ok.1 h
  obtain ⟨thinking, hthinking, h⟩ := checked_bind_eq_ok.1 h
  obtain ⟨toolCalls, hcalls, h⟩ := checked_bind_eq_ok.1 h
  obtain ⟨⟨toolName, toolCallId⟩, hidentity, h⟩ := checked_bind_eq_ok.1 h
  obtain ⟨rfl, rfl⟩ := Prod.mk.inj (Except.ok.inj h)
  let m : ChatMessage := ⟨role, content, thinking, toolCalls, toolName, toolCallId⟩
  have hroles : role ∈ chatRoles :=
    of_decide_eq_true (Bool.and_eq_true_iff.1 (demand_eq_ok.1 hrole)).2
  have hshaped : m.Shaped :=
    { role := hroles
      thinking := fun hsome => onlyFor_owner hthinking fun hnone => by
        rw [show m.thinking = none from hnone] at hsome
        exact absurd hsome (by decide)
      toolCalls := fun hsome => onlyFor_owner hcalls fun hnone => by
        rw [show m.toolCalls = none from hnone] at hsome
        exact absurd hsome (by decide)
      toolName := fun hsome => onlyFor_owner hidentity fun hnone => by
        rw [show m.toolName = none from congrArg Prod.fst hnone] at hsome
        exact absurd hsome (by decide)
      toolCallId := fun hne => onlyFor_owner hidentity fun hnone =>
        hne (congrArg Prod.snd hnone) }
  refine ⟨?_, hshaped⟩
  have hfields : objectOf (some m.toJson) messageDetail = .ok m.fields := rfl
  have hroleAgain : roleOf m.fields = .ok role := roleOf_role hroles
  have hwithin : demand (keysWithin m.fields (messageFields role) && role ∈ chatRoles)
      messageDetail = .ok () :=
    demand_of (Bool.and_eq_true_iff.2 ⟨hshaped.fields_within, decide_eq_true hroles⟩) _
  have hcontentAgain : contentOf (lookup m.fields "content") = .ok content := by
    rw [m.lookup_content]
    rfl
  have hthinkingAgain : onlyFor "assistant" role none (thinkingOf (lookup m.fields "thinking")) =
      .ok thinking := by
    rw [m.lookup_thinking]
    exact onlyFor_again hthinking fun h => thinkingOf_map h
  have hcallsAgain : onlyFor "assistant" role none (toolCallsOf (lookup m.fields "tool_calls")) =
      .ok toolCalls := by
    rw [m.lookup_toolCalls]
    exact onlyFor_again hcalls fun h => toolCallsOf_map h
  have hidentityAgain : onlyFor "tool" role (none, []) (toolIdentity m.fields) =
      .ok (toolName, toolCallId) :=
    onlyFor_again hidentity fun h => toolIdentity_fields h rfl rfl
  change sanitizeMessage chars m.toJson = _
  simp only [sanitizeMessage, hfields, hroleAgain, hwithin, hcontentAgain, hlength, hthinkingAgain,
    hcallsAgain, hidentityAgain, checked_ok_bind]

omit [PythonText] in
theorem lookup_eq_none_of_within {d : ChatFields} {allowed : List Str} {k : Str}
    (h : keysWithin d allowed = true) (hk : k ∉ allowed) : lookup d k = none := by
  refine lookup_eq_none.2 fun hmem => hk ?_
  obtain ⟨q, hq, rfl⟩ := List.mem_map.1 hmem
  exact of_decide_eq_true (List.all_eq_true.1 h q hq)

end MessageLaws

section Totals

def textLength : Option Json → Nat
  | some (.str s) => s.length
  | _ => 0

def thinkingChars : Json → Nat
  | .obj fields => textLength (lookup fields "thinking")
  | _ => 0

def messageChars : Json → Nat
  | .obj fields => textLength (lookup fields "content") + textLength (lookup fields "thinking")
  | _ => 0

/-- The length of all contents and thinkings of the messages. -/
def totalChars : Option Json → Nat
  | some (.arr messages) => (messages.map messageChars).sum
  | _ => 0

theorem messageChars_toJson (m : ChatMessage) : messageChars m.toJson = m.chars := by
  have hthinking : textLength (m.thinking.map Json.str) = (m.thinking.getD []).length := by
    cases m.thinking <;> rfl
  rw [ChatMessage.toJson, messageChars, m.lookup_content, m.lookup_thinking, hthinking]
  rfl

theorem textLength_content {value : Option Json} {content : Str}
    (h : contentOf value = .ok content) : textLength value = content.length := by
  unfold contentOf at h
  split at h
  · obtain rfl := Except.ok.inj h
    rfl
  · obtain rfl := Except.ok.inj h
    rfl
  · cases h

theorem textLength_thinking {value : Option Json} {thinking : Option Str}
    (h : thinkingOf value = .ok thinking) : textLength value = (thinking.getD []).length := by
  unfold thinkingOf at h
  split at h
  · obtain rfl := Except.ok.inj h
    rfl
  · obtain rfl := Except.ok.inj h
    rfl
  · obtain ⟨_, -, h⟩ := checked_bind_eq_ok.1 h
    obtain rfl := Except.ok.inj h
    rfl
  · cases h

variable [PythonText]

/-- What a message adds to the total; the thinking of the message is added to it unseen. -/
theorem sanitizeMessage_chars {chars total : Nat} {raw : Json} {m : ChatMessage}
    (h : sanitizeMessage chars raw = .ok (m, total)) :
    messageChars raw = m.chars ∧ total = chars + messageChars raw ∧
      total ≤ 500000 + thinkingChars raw := by
  obtain ⟨fields, hfields, h⟩ := checked_bind_eq_ok.1 h
  obtain ⟨role, -, h⟩ := checked_bind_eq_ok.1 h
  obtain ⟨_, hrole, h⟩ := checked_bind_eq_ok.1 h
  obtain ⟨content, hcontent, h⟩ := checked_bind_eq_ok.1 h
  obtain ⟨_, hlength, h⟩ := checked_bind_eq_ok.1 h
  obtain ⟨thinking, hthinking, h⟩ := checked_bind_eq_ok.1 h
  obtain ⟨toolCalls, -, h⟩ := checked_bind_eq_ok.1 h
  obtain ⟨identity, -, h⟩ := checked_bind_eq_ok.1 h
  obtain ⟨rfl, rfl⟩ := Prod.mk.inj (Except.ok.inj h)
  have hraw : raw = .obj fields := by
    unfold objectOf at hfields
    split at hfields
    · next found heq =>
      obtain rfl := Except.ok.inj hfields
      exact Option.some.inj heq
    · cases hfields
  have hwithin := (Bool.and_eq_true_iff.1 (demand_eq_ok.1 hrole)).1
  have hcount : textLength (lookup fields "thinking") = (thinking.getD []).length := by
    unfold onlyFor at hthinking
    split at hthinking
    · exact textLength_thinking hthinking
    · next howner =>
      obtain rfl := Except.ok.inj hthinking
      have habsent : text "thinking" ∉ messageFields role := by
        unfold messageFields
        rw [if_neg howner]
        split <;> decide
      rw [lookup_eq_none_of_within hwithin habsent]
      rfl
  have htotal : chars + content.length ≤ 500000 := of_decide_eq_true (demand_eq_ok.1 hlength)
  subst hraw
  have hchars : messageChars (.obj fields) = content.length + (thinking.getD []).length := by
    rw [messageChars, textLength_content hcontent, hcount]
  have hthought : thinkingChars (.obj fields) = (thinking.getD []).length := hcount
  rw [hchars, hthought]
  exact ⟨rfl, Nat.add_assoc .., by omega⟩

/-- The loop over the messages keeps the total within its bound, up to the thinking of the last
message. -/
theorem sanitizeMessagesFrom_spec {raws : List Json} {chars : Nat} {messages : List ChatMessage}
    (h : sanitizeMessagesFrom chars raws = .ok messages) :
    sanitizeMessagesFrom chars (messages.map ChatMessage.toJson) = .ok messages ∧
      messages.length = raws.length ∧ (∀ m ∈ messages, m.Shaped) ∧
      raws.map messageChars = messages.map ChatMessage.chars ∧
      ∀ last, raws.getLast? = some last →
        chars + (raws.map messageChars).sum ≤ 500000 + thinkingChars last := by
  induction raws generalizing chars messages with
  | nil =>
    obtain rfl := Except.ok.inj h
    exact ⟨rfl, rfl, by simp, rfl, by simp⟩
  | cons raw raws ih =>
    obtain ⟨⟨m, total⟩, hm, h⟩ := checked_bind_eq_ok.1 h
    obtain ⟨rest, hrest, h⟩ := checked_bind_eq_ok.1 h
    obtain rfl := Except.ok.inj h
    obtain ⟨hagain, hshaped⟩ := sanitizeMessage_toJson hm
    obtain ⟨hchars, htotal, hbound⟩ := sanitizeMessage_chars hm
    obtain ⟨hrestAgain, hlength, hshapes, hcounts, hlast⟩ := ih hrest
    refine ⟨checked_bind_eq_ok.2 ⟨_, hagain, checked_bind_eq_ok.2 ⟨_, hrestAgain, rfl⟩⟩,
      by rw [List.length_cons, List.length_cons, hlength],
      List.forall_mem_cons.2 ⟨hshaped, hshapes⟩,
      by rw [List.map_cons, List.map_cons, hchars, hcounts], fun last hfound => ?_⟩
    rw [List.map_cons, List.sum_cons]
    cases raws with
    | nil =>
      obtain rfl : raw = last := by simpa using hfound
      simp only [List.map_nil, List.sum_nil]
      omega
    | cons next raws =>
      have hfoundRest : (next :: raws).getLast? = some last := by
        rwa [List.getLast?_cons_cons] at hfound
      have hrestBound := hlast last hfoundRest
      omega

omit [PythonText] in
theorem totalChars_toJson (messages : List ChatMessage) :
    totalChars (some (.arr (messages.map ChatMessage.toJson))) =
      (messages.map ChatMessage.chars).sum := by
  have hchars : messageChars ∘ ChatMessage.toJson = ChatMessage.chars :=
    funext messageChars_toJson
  rw [totalChars, List.map_map, hchars]

theorem sanitizeMessages_spec {value : Option Json} {messages : List ChatMessage}
    (h : sanitizeMessages value = .ok messages) :
    sanitizeMessages (some (.arr (messages.map ChatMessage.toJson))) = .ok messages ∧
      (∀ m ∈ messages, m.Shaped) ∧ totalChars value = (messages.map ChatMessage.chars).sum ∧
      ∃ raws last, value = some (.arr raws) ∧ raws.getLast? = some last ∧
        totalChars value ≤ 500000 + thinkingChars last := by
  unfold sanitizeMessages at h
  split at h
  · next raws =>
    obtain ⟨_, hcount, h⟩ := checked_bind_eq_ok.1 h
    obtain ⟨hagain, hlength, hshaped, hchars, hlast⟩ := sanitizeMessagesFrom_spec h
    have hne : raws ≠ [] := by
      intro hnil
      subst hnil
      exact absurd (demand_eq_ok.1 hcount) (by decide)
    have hfound := List.getLast?_eq_some_getLast hne
    refine ⟨?_, hshaped, by rw [totalChars, hchars], raws, raws.getLast hne, rfl, hfound, ?_⟩
    · rw [sanitizeMessages, List.length_map, hlength]
      exact checked_bind_eq_ok.2 ⟨_, hcount, hagain⟩
    · have hbound := hlast _ hfound
      rwa [Nat.zero_add] at hbound
  · cases h

end Totals

section Rebuilding

theorem thinkEfforts_plain : ∀ s ∈ thinkEfforts,
    isAscii s = true ∧ s.map asciiLower = s ∧ strip s = s ∧ s ≠ [] ∧
      s ∉ [text "1", "true", "yes", "on"] ∧ s ∉ [text "0", "false", "no", "off"] := by
  decide

theorem strip_of_mem_allowedModels {configured candidates m : Str}
    (h : m ∈ allowedModels configured candidates) : strip m = m := by
  have hset : ∀ setting, m ∈ modelSet setting → strip m = m := by
    intro setting hm
    obtain ⟨raw, -, rfl⟩ := List.mem_map.1 (List.mem_of_mem_filter hm)
    exact strip_strip raw
  rcases List.mem_append.1 h with hm | hm
  · exact hset configured hm
  · exact hset candidates hm

theorem keysWithin_setField {d : ChatFields} {allowed : List Str} {k : Str} {x : Json}
    (h : keysWithin d allowed = true) (hk : k ∈ allowed) :
    keysWithin (setField d k x) allowed = true := by
  refine List.all_eq_true.2 fun q hq => ?_
  rcases mem_setField hq with hold | rfl
  · exact List.all_eq_true.1 h q hold
  · exact decide_eq_true hk

theorem filter_of_keysWithin {d : ChatFields} (h : keysWithin d chatKeys = true) :
    (d.filter fun q => q.1 ∈ chatKeys) = d :=
  List.filter_eq_self.2 fun q hq => List.all_eq_true.1 h q hq

/-- Every field with the key `k` has the value `x`, and there is one. -/
structure Settled (d : ChatFields) (k : Str) (x : Json) : Prop where
  values : ∀ q ∈ d, q.1 = k → q.2 = x
  found : lookup d k = some x

theorem settled_setField (d : ChatFields) (k : Str) (x : Json) : Settled (setField d k x) k x :=
  ⟨fun _ hq hk => eq_of_mem_setField hq hk, lookup_setField d k x⟩

theorem Settled.setField_of_ne {d : ChatFields} {k k' : Str} {x : Json} (h : Settled d k x)
    (hne : k ≠ k') (x' : Json) : Settled (setField d k' x') k x := by
  refine ⟨fun q hq hk => ?_, by rw [lookup_setField_of_ne hne, h.found]⟩
  rcases mem_setField hq with hold | rfl
  · exact h.values q hold hk
  · exact absurd hk.symm hne

theorem Settled.eq {d : ChatFields} {k : Str} {x : Json} (h : Settled d k x) :
    setField d k x = d :=
  setField_eq_self h.values (by rw [h.found]; rfl)

variable [PythonText]

omit [PythonText] in
theorem thinkModeOf_effort {normalized s : Str}
    (h : thinkModeOf normalized = .ok (some (.effort s))) : s ∈ thinkEfforts := by
  unfold thinkModeOf at h
  split_ifs at h with _ _ _ hefforts
  · cases h
  · cases h
  · cases h
  · cases h
    exact hefforts

omit [PythonText] in
theorem thinkModeOf_of_mem {s : Str} (hs : s ∈ thinkEfforts) :
    thinkModeOf s = .ok (some (.effort s)) := by
  obtain ⟨-, -, -, hne, hyes, hno⟩ := thinkEfforts_plain s hs
  rw [thinkModeOf, if_neg hne, if_neg hyes, if_neg hno, if_pos hs]

/-- A mode of thinking is asked for again by its own value. -/
theorem thinkOf_toJson {value : Json} {mode : ThinkMode} (h : thinkOf value = .ok mode) :
    thinkOf mode.toJson = .ok mode := by
  cases mode with
  | flag b => rfl
  | effort s =>
    have hnormalized : normalizeOllamaThinkMode value = .ok (some (.effort s)) := by
      unfold thinkOf at h
      split at h
      · next found hmode =>
        obtain rfl := Except.ok.inj h
        exact hmode
      · cases h
      · next e _ =>
        cases he : e.isValueError <;> simp [he, badRequest] at h
    have hs : s ∈ thinkEfforts := by
      unfold normalizeOllamaThinkMode at hnormalized
      split at hnormalized
      · cases hnormalized
      · cases hnormalized
      · obtain ⟨raw, -, hmode⟩ := bind_eq_ok.1 hnormalized
        exact thinkModeOf_effort hmode
    obtain ⟨hascii, hlower, hstrip, -⟩ := thinkEfforts_plain s hs
    have hcasefold : PythonText.casefold (strip s) = s := by
      rw [hstrip, PythonText.casefold_ascii _ hascii, hlower]
    have hagain : normalizeOllamaThinkMode (.str s) = .ok (some (.effort s)) := by
      change thinkModeOf (PythonText.casefold (strip s)) = _
      rw [hcasefold, thinkModeOf_of_mem hs]
    rw [ThinkMode.toJson, thinkOf, hagain]

/-- The mode of thinking changes no other field, and a payload that has it keeps it. -/
theorem withThink_spec {base p : ChatFields} {think : Option Json}
    (h : withThink base think = .ok p) (hbase : lookup base "think" = think) :
    (∀ k x, text "think" ≠ k → Settled base k x → Settled p k x) ∧
      (∀ k, text "think" ≠ k → lookup p k = lookup base k) ∧
      (keysWithin base chatKeys = true → keysWithin p chatKeys = true) ∧
      withThink p (lookup p "think") = .ok p := by
  cases think with
  | none =>
    obtain rfl := Except.ok.inj h
    refine ⟨fun _ _ _ h => h, fun _ _ => rfl, fun h => h, ?_⟩
    rw [hbase]
    rfl
  | some think =>
    obtain ⟨mode, hmode, h⟩ := checked_bind_eq_ok.1 h
    obtain rfl := Except.ok.inj h
    refine ⟨fun k x hne hk => hk.setField_of_ne (Ne.symm hne) _,
      fun k hne => lookup_setField_of_ne (Ne.symm hne) _,
      fun h => keysWithin_setField h (by decide), ?_⟩
    have hsettled := settled_setField base "think" mode.toJson
    rw [hsettled.found]
    refine checked_bind_eq_ok.2 ⟨mode, thinkOf_toJson hmode, ?_⟩
    rw [hsettled.eq]

/-- What is forwarded of a payload, and that it is forwarded again unchanged. -/
theorem ollamaChatPayload_again {allowed : List Str} {value p : ChatFields}
    (h : ollamaChatPayload allowed value = .ok p) :
    (∃ model, strippedText value "model" = .ok model ∧ model ∈ allowed) ∧
      lookup p "model" = lookup value "model" ∧
      (∃ messages, sanitizeMessages (lookup value "messages") = .ok messages ∧
        lookup p "messages" = some (.arr (messages.map ChatMessage.toJson))) ∧
      (∃ tools : List ChatTool, lookup p "tools" = some (.arr (tools.map ChatTool.toJson))) ∧
      ollamaChatPayload allowed p = .ok p := by
  obtain ⟨_, hkeys, h⟩ := checked_bind_eq_ok.1 h
  obtain ⟨model, hmodel, h⟩ := checked_bind_eq_ok.1 h
  obtain ⟨_, hallowed, h⟩ := checked_bind_eq_ok.1 h
  obtain ⟨messages, hmessages, h⟩ := checked_bind_eq_ok.1 h
  obtain ⟨_, hstream, h⟩ := checked_bind_eq_ok.1 h
  obtain ⟨_, hoptions, h⟩ := checked_bind_eq_ok.1 h
  obtain ⟨tools, htools, h⟩ := checked_bind_eq_ok.1 h
  have hwithin := (Bool.and_eq_true_iff.1 (demand_eq_ok.1 hkeys)).1
  rw [filter_of_keysWithin hwithin] at h
  let base := setField (setField value "messages" (.arr (messages.map ChatMessage.toJson)))
    "tools" (.arr (tools.map ChatTool.toJson))
  have hbase : ∀ k, text "messages" ≠ k → text "tools" ≠ k → lookup base k = lookup value k := by
    intro k hm ht
    rw [lookup_setField_of_ne (Ne.symm ht), lookup_setField_of_ne (Ne.symm hm)]
  have hbaseMessages : Settled base "messages" (.arr (messages.map ChatMessage.toJson)) :=
    (settled_setField ..).setField_of_ne (by decide) _
  have hbaseTools : Settled base "tools" (.arr (tools.map ChatTool.toJson)) := settled_setField ..
  have hbaseWithin : keysWithin base chatKeys = true :=
    keysWithin_setField (keysWithin_setField hwithin (by decide)) (by decide)
  obtain ⟨hsettled, hlookup, hkept, hthink⟩ :=
    withThink_spec h (hbase "think" (by decide) (by decide))
  have hp : ∀ k, text "messages" ≠ k → text "tools" ≠ k → text "think" ≠ k →
      lookup p k = lookup value k := fun k hm ht hk => (hlookup k hk).trans (hbase k hm ht)
  have hmessagesP := hsettled _ _ (by decide) hbaseMessages
  have htoolsP := hsettled _ _ (by decide) hbaseTools
  have hmodelP : lookup p "model" = lookup value "model" :=
    hp _ (by decide) (by decide) (by decide)
  have hwithinP := hkept hbaseWithin
  refine ⟨⟨model, hmodel, of_decide_eq_true (demand_eq_ok.1 hallowed)⟩, hmodelP,
    ⟨messages, hmessages, hmessagesP.found⟩, ⟨tools, htoolsP.found⟩, ?_⟩
  have hkeysP : demand (keysWithin p chatKeys && (lookup p "images").isNone)
      "accelerator_ollama_chat_fields_rejected" = .ok () := by
    refine demand_of ?_ _
    rw [hwithinP, lookup_eq_none_of_within hwithinP (by decide)]
    rfl
  have hmodelAgain : strippedText p "model" = .ok model := by
    rw [strippedText, hmodelP]
    exact hmodel
  have hmessagesAgain : sanitizeMessages (lookup p "messages") = .ok messages := by
    rw [hmessagesP.found]
    exact (sanitizeMessages_spec hmessages).1
  have htoolsAgain : sanitizeChatTools (lookup p "tools") = .ok tools := by
    rw [htoolsP.found]
    exact sanitizeChatTools_toJson htools
  rw [← hp "stream" (by decide) (by decide) (by decide)] at hstream
  rw [← hp "options" (by decide) (by decide) (by decide)] at hoptions
  simp only [ollamaChatPayload, hkeysP, hmodelAgain, hallowed, hmessagesAgain, hstream, hoptions,
    htoolsAgain, filter_of_keysWithin hwithinP, hmessagesP.eq, htoolsP.eq, hthink, checked_ok_bind]

end Rebuilding

section Claim

def AdmittedCall (j : Json) : Prop :=
  ∃ call function, j = .obj call ∧ keysWithin call ["id", "type", "function"] = true ∧
    lookup call "function" = some (.obj function) ∧
    keysWithin function ["index", "name", "arguments"] = true

def AdmittedTool (j : Json) : Prop :=
  ∃ tool function, j = .obj tool ∧ keysWithin tool ["type", "function"] = true ∧
    lookup tool "function" = some (.obj function) ∧
    keysWithin function ["name", "description", "parameters"] = true

/-- A message of one of the roles with no field but those of its role, and none in its calls. -/
def AdmittedMessage (j : Json) : Prop :=
  ∃ message role, j = .obj message ∧ lookup message "role" = some (.str role) ∧
    role ∈ chatRoles ∧ keysWithin message (messageFields role) = true ∧
    ∀ v, lookup message "tool_calls" = some v → ∃ calls, v = .arr calls ∧
      ∀ call ∈ calls, AdmittedCall call

variable [PythonText]

/-- What is to hold of a payload that is forwarded. -/
structure Forwardable (allowed : List Str) (p : ChatFields) : Prop where
  model : ∃ model ∈ allowed, lookup p "model" = some (.str model)
  total : totalChars (lookup p "messages") ≤ 500000
  messages : ∃ messages, lookup p "messages" = some (.arr messages) ∧
    ∀ m ∈ messages, AdmittedMessage m
  tools : ∃ tools, lookup p "tools" = some (.arr tools) ∧ ∀ t ∈ tools, AdmittedTool t
  again : ollamaChatPayload allowed p = .ok p

omit [PythonText]

/-- The model of a request is a text without a blank at its ends. -/
def ModelStripped (value : ChatFields) : Prop :=
  ∃ model, lookup value "model" = some (.str model) ∧ strip model = model

/-- The last message thinks nothing, or what it thinks fits into the rest of the characters. -/
def LastThinkingFits (value : ChatFields) : Prop :=
  ∀ messages last, lookup value "messages" = some (.arr messages) →
    messages.getLast? = some last →
      thinkingChars last = 0 ∨ totalChars (lookup value "messages") ≤ 500000

theorem admittedCall_toJson (c : ChatCall) : AdmittedCall c.toJson :=
  ⟨c.fields, c.function, rfl, c.fields_within, c.lookup_function, c.function_within⟩

theorem admittedTool_toJson (t : ChatTool) : AdmittedTool t.toJson :=
  ⟨t.fields, t.function, rfl,
    (Bool.and_eq_true_iff.1 (Bool.and_eq_true_iff.1 t.fields_within).1).1, t.lookup_function,
    t.function_within⟩

theorem admittedMessage_toJson {m : ChatMessage} (h : m.Shaped) : AdmittedMessage m.toJson := by
  refine ⟨m.fields, m.role, rfl, m.lookup_role, h.role, h.fields_within, fun v hv => ?_⟩
  rw [m.lookup_toolCalls] at hv
  obtain ⟨calls, -, rfl⟩ := Option.map_eq_some_iff.1 hv
  refine ⟨_, rfl, fun call hcall => ?_⟩
  obtain ⟨c, -, rfl⟩ := List.mem_map.1 hcall
  exact admittedCall_toJson c

variable [PythonText]

/-- An accepted request is forwarded as it is to be if and only if its model has no blank at its
ends and the thinking of its last message fits. -/
theorem ollamaChatPayload_forwardable {configured candidates : Str} {value p : ChatFields}
    (h : ollamaChatPayload (allowedModels configured candidates) value = .ok p) :
    Forwardable (allowedModels configured candidates) p ↔
      ModelStripped value ∧ LastThinkingFits value := by
  obtain ⟨⟨model, hmodel, hallowed⟩, hmodelP, ⟨messages, hmessages, hmessagesP⟩, ⟨tools, htoolsP⟩,
    hagain⟩ := ollamaChatPayload_again h
  obtain ⟨-, hshaped, htotal, raws, last, hraws, hlast, hbound⟩ := sanitizeMessages_spec hmessages
  have htotalP : totalChars (lookup p "messages") = totalChars (lookup value "messages") := by
    rw [hmessagesP, totalChars_toJson, htotal]
  constructor
  · intro hp
    obtain ⟨forwarded, hmem, hforwarded⟩ := hp.model
    exact ⟨⟨forwarded, hmodelP ▸ hforwarded, strip_of_mem_allowedModels hmem⟩,
      fun _ _ _ _ => .inr (htotalP ▸ hp.total)⟩
  · intro ⟨⟨given, hgiven, hstrip⟩, hfits⟩
    have hsame : model = given := by
      obtain ⟨raw, hraw, rfl⟩ := checked_map_eq_ok.1 hmodel
      rw [attempt_eq_ok, hgiven] at hraw
      have hrawGiven : raw = given := by
        by_cases hnil : given = [] <;> simpa [textOr, truthy, pyStr, hnil, eq_comm] using hraw
      rw [hrawGiven, hstrip]
    have hwithin : totalChars (lookup value "messages") ≤ 500000 := by
      rcases hfits raws last hraws hlast with hnone | hsum
      · rwa [hnone] at hbound
      · exact hsum
    exact
      { model := ⟨model, hallowed, by rw [hmodelP, hgiven, hsame]⟩
        total := htotalP ▸ hwithin
        messages := ⟨_, hmessagesP, fun j hj => by
          obtain ⟨m, hm, rfl⟩ := List.mem_map.1 hj
          exact admittedMessage_toJson (hshaped m hm)⟩
        tools := ⟨_, htoolsP, fun j hj => by
          obtain ⟨t, -, rfl⟩ := List.mem_map.1 hj
          exact admittedTool_toJson t⟩
        again := hagain }

end Claim

section Sample

def sampleTool : ChatTool where
  name := "f"
  description := []
  parameters := [("type", .str "object"), ("properties", .obj [])]

/-- A request for the model `model`. -/
def sampleRequest (model : Str) : ChatFields :=
  [("model", .str model), ("messages", .arr [.obj [("role", .str "user"), ("content", .str [])]]),
    ("stream", .bool false), ("tools", .arr [sampleTool.toJson])]

/-- A blank before the name of the model is not seen, and stays. -/
theorem sample_accepted : ∀ model ∈ [text "m", " m"],
    @ollamaChatPayload asciiText (allowedModels "m" []) (sampleRequest model) =
      .ok (sampleRequest model) := by
  decide +kernel

theorem ollamaChatPayload_forwardable_sample :
    @Forwardable asciiText (allowedModels "m" []) (sampleRequest "m") := by
  refine ((@ollamaChatPayload_forwardable asciiText) (sample_accepted "m" (by simp))).2
    ⟨⟨"m", rfl, by decide⟩, fun messages last hfound hlast => .inl ?_⟩
  have hmessages : some (.arr [.obj [("role", .str "user"), ("content", .str [])]]) =
      some (Json.arr messages) := hfound
  cases hmessages
  cases hlast
  rfl

theorem blank_model_forwarded :
    @ollamaChatPayload asciiText (allowedModels "m" []) (sampleRequest " m") =
        .ok (sampleRequest " m") ∧
      ¬@Forwardable asciiText (allowedModels "m" []) (sampleRequest " m") := by
  refine ⟨sample_accepted " m" (by simp), fun h => ?_⟩
  obtain ⟨model, hmem, hmodel⟩ := @Forwardable.model asciiText _ _ h
  obtain rfl : text " m" = model := by simpa [sampleRequest, lookup] using hmodel
  exact absurd hmem (by decide)

end Sample

end HardyAI.Accelerator
