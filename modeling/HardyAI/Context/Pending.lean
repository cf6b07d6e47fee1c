import HardyAI.Context.Reference

/-! The pending interaction of a session: every operation reads the whole context of the session
and writes it back. -/

open Foundation Foundation.Json HardyAI.Tasks HardyAI.Skills

namespace HardyAI.Context

section Manager

/-- A text, and another one in its place where it is empty. -/
def orText (s default : Str) : Str := if s = [] then default else s

/-- `[str(item).strip() for item in items if str(item).strip()]`. -/
def cleanedItems (items : List Str) : List Str := items.filterMap fun s => cleaned (some s)

/-- What a new interaction is made of, with both readings of the clock. -/
structure SetArgs where
  intent : Str
  entities : Fields
  missingFields : List Str
  question : Option Str
  kind : Str := "missing_field"
  status : Str := "pending"
  skillId : Option Str := none
  expiresInSeconds : Option Seconds := none
  metadata : Option Fields := none
  createdAt : Instant
  now : Instant

/-- The time to live of an interaction, at least a second. A manager without a default keeps an
interaction for good. -/
def SetArgs.ttl (defaultTtl : Option Seconds) (a : SetArgs) : Option Seconds :=
  (a.expiresInSeconds.or defaultTtl).map (Seconds.atLeast 1000000)

def SetArgs.expiry (defaultTtl : Option Seconds) (a : SetArgs) : Except PyError (Option Instant) :=
  (a.ttl defaultTtl).mapM a.now.add

def SetArgs.interaction (a : SetArgs) (expiry : Option Instant) : PendingInteraction where
  kind := orText (strip (orText a.kind "missing_field")) "missing_field"
  intent := cleaned (some a.intent)
  skillId := cleaned a.skillId
  status := orText (strip (orText a.status "pending")) "pending"
  question := cleaned a.question
  expectedFields := cleanedItems a.missingFields
  proposedAction := [("entities", .obj a.entities)]
  createdAt := some (isoUtc a.createdAt)
  expiresAt := expiry.map isoUtc
  metadata := a.metadata.getD []

structure ContinueArgs where
  entities : Option Fields := none
  missingFields : Option (List Str) := none
  question : Option Str := none
  status : Option Str := none
  metadataUpdates : Option Fields := none
  now : Instant

def ContinueArgs.apply (a : ContinueArgs) (p : PendingInteraction) : PendingInteraction :=
  { p with
    status := (cleaned a.status).getD p.status
    question := match a.question with
      | some s => cleaned (some s)
      | none => p.question
    expectedFields := match a.missingFields with
      | some items => cleanedItems items
      | none => p.expectedFields
    proposedAction := [("entities", .obj (match a.entities with
      | some entities => entities
      | none => parseDict (lookup p.proposedAction "entities")))]
    metadata := (a.metadataUpdates.getD []).foldl putField p.metadata }

variable [MomentText]

/-- `_is_stale`, at a reading of the clock. -/
def isStale (now : Instant) (p : PendingInteraction) : Bool :=
  p.expiresAt.any fun s => strip s ≠ [] && (MomentText.moment s).any fun m => m ≤ (now.val : Int)

variable [PythonText] [PythonFloat]

/-- `_write_state` of a state with another interaction. -/
def writePending (ref : Fields) (s : SessionContextState) (p : Option PendingInteraction) : Fields :=
  writeState ref { s with pendingInteraction := p }

def getPendingInteraction (expireStale : Bool) (now : Instant) :
    Transaction Fields (Option PendingInteraction) := fun ref => do
  let state ← deserializeSessionContext (.obj ref)
  match state.pendingInteraction with
  | none => .ok (none, ref)
  | some pending =>
    if expireStale && isStale now pending then .ok (none, writePending ref state none)
    else .ok (some pending, ref)

omit [MomentText] [PythonText] [PythonFloat] in
def legacyPayload (p : PendingInteraction) : Fields :=
  [("intent", orNull p.intent), ("entities", .obj (parseDict (lookup p.proposedAction "entities"))),
    ("missing_fields", strItems p.expectedFields), ("question", orNull p.question),
    ("kind", .str p.kind), ("status", .str p.status), ("expires_at", orNull p.expiresAt),
    ("metadata", .obj p.metadata)]

def getPendingLegacyPayload (expireStale : Bool) (now : Instant) :
    Transaction Fields (Option Fields) :=
  (getPendingInteraction expireStale now).mapReply (Option.map legacyPayload)

omit [MomentText] in
def setPendingInteraction (defaultTtl : Option Seconds) (a : SetArgs) :
    Transaction Fields PendingInteraction := fun ref => do
  let expiry ← a.expiry defaultTtl
  let state ← deserializeSessionContext (.obj ref)
  .ok (a.interaction expiry, writePending ref state (some (a.interaction expiry)))

def continuePendingInteraction (a : ContinueArgs) :
    Transaction Fields (Option PendingInteraction) := fun ref => do
  let state ← deserializeSessionContext (.obj ref)
  match state.pendingInteraction with
  | none => .ok (none, ref)
  | some pending =>
    if isStale a.now pending then .ok (none, writePending ref state none)
    else .ok (some (a.apply pending), writePending ref state (some (a.apply pending)))

omit [MomentText] [PythonText] [PythonFloat] in
/-- The annotations after a cancellation, which notes its reason. -/
def cancelNote (annotations : Fields) (reason : Option Str) (now : Instant) : Fields :=
  match reason with
  | none | some [] => annotations
  | some reason => putField (putField annotations
      ("last_pending_cancel_reason", .str (strip reason)))
      ("last_pending_cancelled_at", .str (isoUtc now))

omit [MomentText] in
def cancelPendingInteraction (reason : Option Str) (now : Instant) : Transaction Fields Bool :=
  fun ref => do
  let state ← deserializeSessionContext (.obj ref)
  match state.pendingInteraction with
  | none => .ok (false, ref)
  | some _ => .ok (true, writePending ref
      { state with contextAnnotations := cancelNote state.contextAnnotations reason now } none)

omit [MomentText] in
def clearPendingInteraction : Transaction Fields Bool := fun ref => do
  let state ← deserializeSessionContext (.obj ref)
  match state.pendingInteraction with
  | none => .ok (false, ref)
  | some _ => .ok (true, writePending ref state none)

def expireStalePendingInteraction (now : Instant) : Transaction Fields Bool := fun ref => do
  let state ← deserializeSessionContext (.obj ref)
  match state.pendingInteraction with
  | none => .ok (false, ref)
  | some pending =>
    if isStale now pending then .ok (true, writePending ref state none) else .ok (false, ref)

end Manager

section Calls

inductive Call
  | get (expireStale : Bool) (now : Instant)
  | legacyPayload (expireStale : Bool) (now : Instant)
  | set (a : SetArgs)
  | continue (a : ContinueArgs)
  | cancel (reason : Option Str) (now : Instant)
  | clear
  | expire (now : Instant)

inductive Answer
  | interaction (p : Option PendingInteraction)
  | payload (fields : Option Fields)
  | flag (b : Bool)
  deriving DecidableEq

variable [MomentText] [PythonText] [PythonFloat] (defaultTtl : Option Seconds)

def Call.run : Call → Transaction Fields Answer
  | .get expireStale now => (getPendingInteraction expireStale now).mapReply .interaction
  | .legacyPayload expireStale now => (getPendingLegacyPayload expireStale now).mapReply .payload
  | .set a => (setPendingInteraction defaultTtl a).mapReply fun p => .interaction (some p)
  | .continue a => (continuePendingInteraction a).mapReply .interaction
  | .cancel reason now => (cancelPendingInteraction reason now).mapReply .flag
  | .clear => clearPendingInteraction.mapReply .flag
  | .expire now => (expireStalePendingInteraction now).mapReply .flag

/-- The reference of a session after some calls. -/
def referenceAfter (ref : Fields) (calls : List Call) : Fields :=
  calls.foldl (fun ref c => (c.run defaultTtl).commit ref) ref

/-- What each of some calls answers. -/
def answers (ref : Fields) : List Call → List (Except PyError Answer)
  | [] => []
  | c :: calls => (c.run defaultTtl).reply ref :: answers ((c.run defaultTtl).commit ref) calls

end Calls

end HardyAI.Context
