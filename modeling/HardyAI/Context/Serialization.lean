import HardyAI.Context.State
import HardyAI.Foundation.Floats
import HardyAI.Foundation.JsonReload
import HardyAI.Tasks.Worker

/-! A session's context as it is read from the dictionary of a session, and written to it. -/

open Foundation Foundation.Json HardyAI.Tasks

namespace HardyAI.Context

section Coercions

/-- `_as_optional_str`. -/
def asOptionalStr : Option Json → Option Str
  | some (.str s) => if strip s = [] then none else some (strip s)
  | _ => none

/-- `_as_non_empty_str`. -/
def asNonEmptyStr (raw : Option Json) (default : Str) : Str := (asOptionalStr raw).getD default

/-- `_parse_dict`. -/
def parseDict : Option Json → Fields
  | some (.obj fields) => fields
  | _ => []

/-- `_parse_str_list`. -/
def parseStrList : Option Json → List Str
  | some (.arr items) => items.filterMap fun x => asOptionalStr (some x)
  | _ => []

def asObject : Json → Option Fields
  | .obj fields => some fields
  | _ => none

/-- `_parse_dict_list`. -/
def parseDictList : Option Json → List Fields
  | some (.arr items) => items.filterMap asObject
  | _ => []

variable [PythonText]

/-- `_as_int`. -/
def asInt (raw : Option Json) (default : Int) : Except PyError Whole :=
  match raw with
  | some (.bool b) => .ok (.bool b)
  | some (.int n) => .ok (.int n)
  | some (.float bits) => (pyInt (.float bits)).map .int
  | some (.str s) =>
    match intOfText (strip s) with
    | .ok n => .ok (.int n)
    | .error _ => .ok (.int default)
  | _ => .ok (.int default)

omit [PythonText] in
/-- `float(n)`. -/
def floatFrom (n : Int) : Except PyError (BitVec 64) :=
  match floatOfInt n with
  | some bits => .ok bits
  | none => .error .overflowError

omit [PythonText] in
/-- `_as_float`. -/
def asFloat [PythonFloat] (raw : Option Json) (default : BitVec 64) :
    Except PyError (BitVec 64) :=
  match raw with
  | some (.bool b) => floatFrom (if b then 1 else 0)
  | some (.int n) => floatFrom n
  | some (.float bits) => .ok bits
  | some (.str s) =>
    if strip s = [] then .ok default else .ok ((PythonFloat.ofText (strip s)).getD default)
  | _ => .ok default

end Coercions

section Parsing

variable [PythonText]

def parseRecentTurn (raw : Fields) : RecentTurn where
  turnId := asOptionalStr (lookup raw "turn_id")
  role := asNonEmptyStr (lookup raw "role") []
  text := asNonEmptyStr (lookup raw "text") []
  normalizedText := asNonEmptyStr (lookup raw "normalized_text") []
  intent := asOptionalStr (lookup raw "intent")
  skillId := asOptionalStr (lookup raw "skill_id")
  timestamp := asOptionalStr (lookup raw "timestamp")
  references := parseDict (lookup raw "references")

/-- `_parse_recent_turns`. -/
def parseRecentTurns (raw : Option Json) : List RecentTurn :=
  (parseDictList raw).map parseRecentTurn

/-- `_parse_pending_interaction`. -/
def parsePendingInteraction : Option Json → Option PendingInteraction
  | some (.obj raw) => some
    { kind := asNonEmptyStr (lookup raw "kind") "clarification"
      intent := asOptionalStr (lookup raw "intent")
      skillId := asOptionalStr (lookup raw "skill_id")
      status := asNonEmptyStr (lookup raw "status") "pending"
      question := asOptionalStr (lookup raw "question")
      expectedFields := parseStrList (lookup raw "expected_fields")
      candidateEntities := parseDictList (lookup raw "candidate_entities")
      proposedAction := parseDict (lookup raw "proposed_action")
      createdAt := asOptionalStr (lookup raw "created_at")
      expiresAt := asOptionalStr (lookup raw "expires_at")
      originTurnId := asOptionalStr (lookup raw "origin_turn_id")
      metadata := parseDict (lookup raw "metadata") }
  | _ => none

/-- The numbers of a list, one after the other. -/
def wholeItems : List Json → Except PyError (List Whole)
  | [] => .ok []
  | .bool b :: rest => (wholeItems rest).map (.bool b :: ·)
  | .int n :: rest => (wholeItems rest).map (.int n :: ·)
  | .float bits :: rest => do
    let n ← pyInt (.float bits)
    let ns ← wholeItems rest
    .ok (.int n :: ns)
  | _ :: rest => wholeItems rest

/-- `for item in raw.get("source_turn_range", [])`. The members of a text and of a dictionary are
texts. -/
def turnRange : Option Json → Except PyError (List Whole)
  | none => .ok []
  | some (.arr items) => wholeItems items
  | some (.str _) | some (.obj _) => .ok []
  | some .null | some (.bool _) | some (.int _) | some (.float _) => .error .typeError

/-- `_parse_session_summary`. -/
def parseSessionSummary : Option Json → Except PyError SessionSummary
  | some (.obj raw) => do
    let sourceTurnRange ← turnRange (lookup raw "source_turn_range")
    .ok { summaryText := asNonEmptyStr (lookup raw "summary_text") []
          activeGoals := parseStrList (lookup raw "active_goals")
          resolvedDecisions := parseStrList (lookup raw "resolved_decisions")
          openThreads := parseStrList (lookup raw "open_threads")
          importantEntities := parseStrList (lookup raw "important_entities")
          lastUpdatedAt := asOptionalStr (lookup raw "last_updated_at")
          sourceTurnRange }
  | _ => .ok {}

variable [PythonFloat]

def parseTrackedEntity (raw : Fields) : Except PyError TrackedEntity := do
  let salience ← asFloat (lookup raw "salience") 0
  .ok { domain := asNonEmptyStr (lookup raw "domain") []
        entityType := asNonEmptyStr (lookup raw "entity_type") []
        entityId := asOptionalStr (lookup raw "entity_id")
        displayName := asNonEmptyStr (lookup raw "display_name") []
        aliases := parseStrList (lookup raw "aliases")
        salience
        lastConfirmedAt := asOptionalStr (lookup raw "last_confirmed_at")
        resolutionHints := parseDict (lookup raw "resolution_hints") }

/-- `normalized_alias_map[key_str] = value_str`, for a key and a value that are some text. -/
def putAlias (d : Fields) (p : Str × Json) : Fields :=
  match asOptionalStr (some (.str p.1)), asOptionalStr (some p.2) with
  | some k, some v => putField d (k, .str v)
  | _, _ => d

/-- `_parse_entity_registry`. -/
def parseEntityRegistry : Option Json → Except PyError EntityRegistry
  | some (.obj raw) => do
    let entities ← (parseDictList (lookup raw "entities")).mapM parseTrackedEntity
    .ok { entities, aliasMap := (parseDict (lookup raw "alias_map")).foldl putAlias [] }
  | _ => .ok {}

end Parsing

section Legacy

variable [PythonText]

def legacyInteraction (pending : Fields) : PendingInteraction where
  kind := "missing_field"
  intent := asOptionalStr (lookup pending "intent")
  status := "pending"
  question := asOptionalStr (lookup pending "question")
  expectedFields := parseStrList (lookup pending "missing_fields")
  proposedAction := [("entities", .obj (parseDict (lookup pending "entities")))]
  metadata := [("legacy_source", .str "pending_clarification")]

/-- The interaction of the legacy key. -/
def fallback (raw : Fields) : Option PendingInteraction :=
  ((lookup raw "pending_clarification").bind asObject).map legacyInteraction

/-- The legacy key's interaction, where the context has none of its own. -/
def adaptPending (raw : Fields) (s : SessionContextState) : SessionContextState :=
  { s with pendingInteraction := s.pendingInteraction.or (fallback raw) }

/-- `_ensure_legacy_entity`. -/
def ensureLegacyEntity (rawValue : Option Json) (domain entityType legacyKey : Str)
    (s : SessionContextState) : SessionContextState :=
  match asOptionalStr rawValue with
  | none => s
  | some displayName =>
    if s.entityRegistry.entities.any fun e => e.domain = domain && e.entityType = entityType &&
        PythonText.lower e.displayName = PythonText.lower displayName then s
    else { s with entityRegistry.entities := s.entityRegistry.entities ++
      [{ domain, entityType, displayName, aliases := [PythonText.lower displayName]
         salience := 0x3FE999999999999A
         resolutionHints := [("legacy_key", .str legacyKey)] }] }

/-- The turns of the legacy keys, where the context has no annotation of its own. -/
def adaptSticky (raw : Fields) (turns : Whole) (s : SessionContextState) : SessionContextState :=
  if 0 < turns.value ∧ (lookup s.contextAnnotations "main_sticky_followup").isNone then
    { s with contextAnnotations := putField s.contextAnnotations ("main_sticky_followup", .obj
        [("turns_remaining", turns.toJson),
          ("reason", .str ((asOptionalStr (lookup raw "main_sticky_followup_reason")).getD
            "clarification")),
          ("legacy_source", .str "main_sticky_followup_turns_remaining")]) }
  else s

def adaptTokenSession (raw : Fields) (s : SessionContextState) : SessionContextState :=
  if s.mainAgentTokenSession = [] then
    { s with mainAgentTokenSession := parseDict (lookup raw "main_agent_token_session") }
  else s

def adaptChannelRuntime (raw : Fields) (s : SessionContextState) : SessionContextState :=
  if s.channelRuntime = [] then { s with channelRuntime := parseDict (lookup raw "channel_session") }
  else s

def adaptEntities (raw : Fields) (s : SessionContextState) : SessionContextState :=
  ensureLegacyEntity (lookup raw "last_calendar_person") "calendar" "person" "last_calendar_person"
    (ensureLegacyEntity (lookup raw "last_switch_name") "home" "switch" "last_switch_name"
      (ensureLegacyEntity (lookup raw "last_list_name") "lists" "list" "last_list_name" s))

/-- `_apply_legacy_adapters`. -/
def applyLegacyAdapters (raw : Fields) (s : SessionContextState) :
    Except PyError SessionContextState := do
  let adapted := adaptEntities raw (adaptPending raw s)
  let turns ← asInt (lookup raw "main_sticky_followup_turns_remaining") 0
  .ok (adaptChannelRuntime raw (adaptTokenSession raw (adaptSticky raw turns adapted)))

end Legacy

section Context

variable [PythonText]

/-- `deserialize_session_context`. -/
def deserializeSessionContext [PythonFloat] (payload : Json) :
    Except PyError SessionContextState := do
  let raw := (asObject payload).getD []
  let version ← asInt (lookup raw "context_version") 1
  let sessionSummary ← parseSessionSummary (lookup raw "session_summary")
  let entityRegistry ← parseEntityRegistry (lookup raw "entity_registry")
  let state ← applyLegacyAdapters raw
    { version := version.value
      activeAgentId := asNonEmptyStr (lookup raw "active_agent_id") "jarvis"
      activeSkillId := asOptionalStr (lookup raw "active_skill_id")
      recentTurns := parseRecentTurns (lookup raw "recent_turns")
      pendingInteraction := parsePendingInteraction (lookup raw "pending_interaction")
      sessionSummary, entityRegistry
      focusStack := parseStrList (lookup raw "focus_stack")
      contextAnnotations := parseDict (lookup raw "context_annotations")
      channelRuntime := parseDict (lookup raw "channel_runtime")
      mainAgentTokenSession := parseDict (lookup raw "main_agent_token_session") }
  .ok (if state.version ≤ 0 then { state with version := 1 } else state)

omit [PythonText] in
/-- `serialize_session_context`. -/
def serializeSessionContext (s : SessionContextState) : Fields :=
  putField s.toDict ("context_version", .int (max 1 (if s.version = 0 then 1 else s.version)))

end Context

section Compatibility

variable [PythonText]

/-- A key of a dictionary as JSON writes it. -/
def keyText : Json → Except PyError Str
  | .null => .ok "null"
  | .bool b => .ok (if b then text "true" else text "false")
  | .int n => .ok (intText n)
  | .float bits => .ok (PythonText.floatRepr bits)
  | .str s => .ok s
  | .arr _ | .obj _ => .error .typeError

/-- What `dict` makes of one element of a list. -/
def dictPair : Json → Except PyError (Str × Json)
  | .arr [k, v] => (keyText k).map (·, v)
  | .str [c, d] => .ok ([c], .str [d])
  | .obj [p, q] => .ok (p.1, .str q.1)
  | .arr _ | .str _ | .obj _ => .error (.valueError "dictionary update sequence element")
  | .null | .bool _ | .int _ | .float _ => .error .typeError

/-- `dict(value)`. -/
def dictOf : Json → Except PyError Fields
  | .obj fields => .ok fields
  | .arr items => (items.mapM dictPair).map fun ps => ps.foldl putField []
  | .str [] => .ok []
  | .str _ => .error (.valueError "dictionary update sequence element")
  | .null | .bool _ | .int _ | .float _ => .error .typeError

def legacyPending (p : PendingInteraction) : Except PyError Json := do
  let entities ← dictOf ((lookup p.proposedAction "entities").getD (.obj []))
  .ok (.obj [("intent", orNull p.intent), ("entities", .obj entities),
    ("missing_fields", strItems p.expectedFields), ("question", orNull p.question)])

omit [PythonText] in
/-- What the loop of `_best_entity_name` keeps after one more entity. -/
def betterEntity (domain entityType : Str) (best : Option TrackedEntity) (e : TrackedEntity) :
    Option TrackedEntity :=
  if e.domain ≠ domain ∨ e.entityType ≠ entityType ∨ strip e.displayName = [] then best
  else match best with
    | none => some e
    | some b => if floatLt b.salience e.salience then some e else best

omit [PythonText] in
/-- The entity that `_best_entity_name` names: the first one of the highest salience. -/
def bestEntity (es : List TrackedEntity) (domain entityType : Str) : Option TrackedEntity :=
  es.foldl (betterEntity domain entityType) none

omit [PythonText] in
/-- `_best_entity_name`. -/
def bestEntityName (s : SessionContextState) (domain entityType : Str) : Option Str :=
  (bestEntity s.entityRegistry.entities domain entityType).bind fun e =>
    asOptionalStr (some (.str e.displayName))

/-- The turns and the reason of a sticky annotation. -/
def legacySticky (annotations : Fields) : Except PyError (Option Json × Option Json) :=
  match lookup annotations "main_sticky_followup" with
  | some (.obj sticky) => do
    let turns ← asInt (lookup sticky "turns_remaining") 0
    .ok (if 0 < turns.value then
      (some turns.toJson, (asOptionalStr (lookup sticky "reason")).map .str) else (none, none))
  | _ => .ok (none, none)

omit [PythonText] in
def nonEmptyDict (fields : Fields) : Option Json := if fields = [] then none else some (.obj fields)

omit [PythonText] in
/-- The keys that are written beside those of the context, each where it has a value. -/
def legacyPairs (s : SessionContextState) (pending turns reason : Option Json) :
    List (Str × Option Json) :=
  [("pending_clarification", pending),
    ("last_list_name", (bestEntityName s "lists" "list").map .str),
    ("last_switch_name", (bestEntityName s "home" "switch").map .str),
    ("last_calendar_person", (bestEntityName s "calendar" "person").map .str),
    ("main_sticky_followup_turns_remaining", turns), ("main_sticky_followup_reason", reason),
    ("main_agent_token_session", nonEmptyDict s.mainAgentTokenSession),
    ("channel_session", nonEmptyDict s.channelRuntime)]

def legacyFields (s : SessionContextState) : Except PyError (List (Str × Option Json)) := do
  let pending ← s.pendingInteraction.mapM legacyPending
  let (turns, reason) ← legacySticky s.contextAnnotations
  .ok (legacyPairs s pending turns reason)

omit [PythonText] in
def present (fields : List (Str × Option Json)) : Fields :=
  fields.filterMap fun p => p.2.map fun v => (p.1, v)

/-- `session_context_to_legacy_compat_dict`. -/
def sessionContextToLegacyCompatDict (s : SessionContextState) : Except PyError Fields := do
  let legacy ← legacyFields s
  .ok ((present legacy).foldl putField (serializeSessionContext s))

end Compatibility

end HardyAI.Context
