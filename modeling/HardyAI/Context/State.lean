import HardyAI.Foundation.Json

/-! The state of a session's context, and the dictionaries that it is stored as. -/

open Foundation Foundation.Json

namespace HardyAI.Context

abbrev Fields := List (Str × Json)

/-- What `isinstance(value, int)` holds of: a truth value is one of the numbers 0 and 1. -/
inductive Whole
  | bool (b : Bool)
  | int (n : Int)
  deriving DecidableEq, Inhabited

def Whole.value : Whole → Int
  | .bool b => if b then 1 else 0
  | .int n => n

def Whole.toJson : Whole → Json
  | .bool b => .bool b
  | .int n => .int n

def orNull (s : Option Str) : Json := (s.map Json.str).getD .null

def strItems (items : List Str) : Json := .arr (items.map .str)

structure RecentTurn where
  turnId : Option Str
  role : Str
  text : Str
  normalizedText : Str
  intent : Option Str
  skillId : Option Str
  timestamp : Option Str
  references : Fields
  deriving DecidableEq, Inhabited

def RecentTurn.toDict (t : RecentTurn) : Fields :=
  [("turn_id", orNull t.turnId), ("role", .str t.role), ("text", .str t.text),
    ("normalized_text", .str t.normalizedText), ("intent", orNull t.intent),
    ("skill_id", orNull t.skillId), ("timestamp", orNull t.timestamp),
    ("references", .obj t.references)]

structure PendingInteraction where
  kind : Str
  intent : Option Str := none
  skillId : Option Str := none
  status : Str
  question : Option Str := none
  expectedFields : List Str := []
  candidateEntities : List Fields := []
  proposedAction : Fields := []
  createdAt : Option Str := none
  expiresAt : Option Str := none
  originTurnId : Option Str := none
  metadata : Fields := []
  deriving DecidableEq, Inhabited

def PendingInteraction.toDict (p : PendingInteraction) : Fields :=
  [("kind", .str p.kind), ("intent", orNull p.intent), ("skill_id", orNull p.skillId),
    ("status", .str p.status), ("question", orNull p.question),
    ("expected_fields", strItems p.expectedFields),
    ("candidate_entities", .arr (p.candidateEntities.map .obj)),
    ("proposed_action", .obj p.proposedAction), ("created_at", orNull p.createdAt),
    ("expires_at", orNull p.expiresAt), ("origin_turn_id", orNull p.originTurnId),
    ("metadata", .obj p.metadata)]

structure TrackedEntity where
  domain : Str
  entityType : Str
  entityId : Option Str := none
  displayName : Str
  aliases : List Str
  salience : BitVec 64
  lastConfirmedAt : Option Str := none
  resolutionHints : Fields
  deriving DecidableEq, Inhabited

def TrackedEntity.toDict (e : TrackedEntity) : Fields :=
  [("domain", .str e.domain), ("entity_type", .str e.entityType), ("entity_id", orNull e.entityId),
    ("display_name", .str e.displayName), ("aliases", strItems e.aliases),
    ("salience", .float e.salience), ("last_confirmed_at", orNull e.lastConfirmedAt),
    ("resolution_hints", .obj e.resolutionHints)]

structure EntityRegistry where
  entities : List TrackedEntity := []
  aliasMap : Fields := []
  deriving DecidableEq, Inhabited

def EntityRegistry.toDict (r : EntityRegistry) : Fields :=
  [("entities", .arr (r.entities.map fun e => .obj e.toDict)),
    ("alias_map", .obj r.aliasMap)]

structure SessionSummary where
  summaryText : Str := []
  activeGoals : List Str := []
  resolvedDecisions : List Str := []
  openThreads : List Str := []
  importantEntities : List Str := []
  lastUpdatedAt : Option Str := none
  sourceTurnRange : List Whole := []
  deriving DecidableEq, Inhabited

def SessionSummary.toDict (s : SessionSummary) : Fields :=
  [("summary_text", .str s.summaryText), ("active_goals", strItems s.activeGoals),
    ("resolved_decisions", strItems s.resolvedDecisions), ("open_threads", strItems s.openThreads),
    ("important_entities", strItems s.importantEntities), ("last_updated_at", orNull s.lastUpdatedAt),
    ("source_turn_range", .arr (s.sourceTurnRange.map Whole.toJson))]

/-- The version is a number, `True` being the number 1. -/
structure SessionContextState where
  version : Int
  activeAgentId : Str
  activeSkillId : Option Str
  recentTurns : List RecentTurn
  pendingInteraction : Option PendingInteraction
  sessionSummary : SessionSummary
  entityRegistry : EntityRegistry
  focusStack : List Str
  contextAnnotations : Fields
  channelRuntime : Fields
  mainAgentTokenSession : Fields
  deriving DecidableEq, Inhabited

def SessionContextState.toDict (s : SessionContextState) : Fields :=
  [("context_version", .int s.version), ("active_agent_id", .str s.activeAgentId),
    ("active_skill_id", orNull s.activeSkillId),
    ("recent_turns", .arr (s.recentTurns.map fun t => .obj t.toDict)),
    ("pending_interaction", (s.pendingInteraction.map fun p => .obj p.toDict).getD .null),
    ("session_summary", .obj s.sessionSummary.toDict),
    ("entity_registry", .obj s.entityRegistry.toDict), ("focus_stack", strItems s.focusStack),
    ("context_annotations", .obj s.contextAnnotations),
    ("channel_runtime", .obj s.channelRuntime),
    ("main_agent_token_session", .obj s.mainAgentTokenSession)]

end HardyAI.Context
