import HardyAI.Tickets.RemediationPolicy
import HardyAI.Tickets.Requests

/-! `RemediationService.execute`: a child ticket, its manifest, the effect through the gateway,
and the outcome. -/

open Foundation Foundation.Json HardyAI.Jobs

namespace HardyAI.Tickets

variable [PythonText]

def appendEntryProcess (ticketId requestId : Str) (entryType : TicketEntryType) (actorType : Str)
    (actorId verbatimText : Option Str) (payload : Json) (dedupeKey : Str) : Process Unit := do
  let entryId ← ask .newId
  let _ ← Program.raising (ask (.appendEntry
    { entryId, ticketId, requestId, entryType, actorType, actorId, verbatimText
      structuredPayload := payload, dedupeKey }))
  pure ()

def transitionProcess (a : TransitionArgs) : Process (Option Ticket) :=
  Program.raising (ask (.transitionTicket a))

/-- `_fail_closed`. -/
def failClosed (cfg : ReviewConfig) (childId reason completedAt : Str) :
    Process (Option Ticket) := do
  let _ ← transitionProcess
    { ticketId := childId, status := .reconciliationRequired, completedAt := some completedAt
      terminalReason := some reason }
  enqueuePlane cfg childId
  ask (.getTicket childId)

/-- The request of a remediation, which its parent, the revision and the repair determine. -/
def remediationRequestId (parent : Ticket) (repair : ReviewRepair) (entitiesHash : Str) : Str :=
  text "remediation:" ++ parent.ticketId ++ text ":" ++
    parent.sourceActionRevision.getD (text "None") ++ text ":" ++ repair.capability ++ text ":" ++
    entitiesHash

def orText (value : Str) (default : Str) : Str := if value = [] then default else value

def remediationTicket (parent : Ticket) (repair : ReviewRepair) (originRequestId childId : Str) :
    CreateArgs where
  ticketId := childId
  originRequestId := originRequestId
  sessionId := orText parent.sessionId (text "remediation:" ++ parent.ticketId)
  userId := orText parent.userId "system"
  agentId := orText parent.agentId "jarvis"
  source := "ticket_review_worker"
  intent := repair.capability
  skillId := if parent.skillId.getD [] = [] then none else parent.skillId
  route := "autonomous_remediation"
  title := text "Repair: " ++ orText parent.title repair.capability
  ticketKind := .remediation
  parentTicketId := some parent.ticketId
  rootTicketId := some (orText parent.rootTicketId parent.ticketId)
  remediationGeneration := parent.remediationGeneration + 1

/-- The hashes that the manifest of a remediation holds. -/
structure RemediationHashes where
  entities : Str
  authorization : Str
  descriptor : Str
  target : Str

def remediationHashes (parent : Ticket) (repair : ReviewRepair) :
    Except PyError RemediationHashes := do
  let entities ← contentHash (.obj repair.entities)
  let authorization ← contentHash (.obj [("user_id", .str parent.userId),
    ("agent_id", .str parent.agentId), ("source", .str "ticket_review_worker"),
    ("capability", .str repair.capability)])
  let descriptor ← contentHash (.obj [("capability", .str repair.capability),
    ("contract_version", .int 1)])
  let target ← contentHash (.obj [("capability", .str repair.capability),
    ("list_name", (lookup repair.entities "list_name").getD .null)])
  .ok ⟨entities, authorization, descriptor, target⟩

def remediationManifest (parent : Ticket) (repair : ReviewRepair) (h : RemediationHashes)
    (parentOperationId childOperationId : Str) : Json :=
  .obj [("schema_version", .int 1), ("parent_operation_id", .str parentOperationId),
    ("authorization_binding_hash", .str h.authorization), ("effect_cardinality", .str "single"),
    ("expected_child_count", .int 1),
    ("skill_id", .str (orText (parent.skillId.getD []) "skill.lists.core")),
    ("tool_id", .str repair.capability), ("contract_version", .int 1),
    ("descriptor_hash", .str h.descriptor), ("resource_version", .int 1),
    ("parent_arguments_hash", .str h.entities),
    ("children", .arr [.obj [("child_operation_id", .str childOperationId),
      ("child_index", .int 0), ("target_hash", .str h.target),
      ("arguments_hash", .str h.entities)]]),
    ("recovery_manifest_hash", .null), ("sensitivity", .str "normal"),
    ("persistence", .str "standard")]

/-- What follows the effect, or the attempt at it. -/
def settleRemediation (cfg : ReviewConfig) (parent child : Ticket)
    (originRequestId parentOperationId childOperationId manifestHash completedAt : Str)
    (execution : Except PyError Json) : Process (Option Ticket) := do
  let childId := child.ticketId
  match execution with
  | .error _ => failClosed cfg childId "remediation_effect_completion_unknown" completedAt
  | .ok (.obj fields) =>
    let authorization ← .ofExcept (textOr (lookup fields "authorization_status") [])
    if authorization ≠ text "authorized" then
      sinkTerminalChild parentOperationId manifestHash childOperationId "denied" none
        (some (text "authorization_denied"))
      failClosed cfg childId "remediation_authorization_denied" completedAt
    else
      let approval ← .ofExcept (textOr (lookup fields "approval_status") [])
      if approval ≠ text "approved" ∧ approval ≠ text "not_required" then
        failClosed cfg childId "remediation_approval_incomplete" completedAt
      else
        match lookup fields "receipt" with
        | some (.obj receipt) =>
          if lookup receipt "operation_id" ≠ some (.str childOperationId) then
            failClosed cfg childId "remediation_operation_binding_conflict" completedAt
          else
            appendEntryProcess childId originRequestId .executionCompleted "domain" none none
              (.obj (mapping (lookup fields "result")))
              (text "ticket:" ++ childId ++ text ":remediation-result")
            sinkTerminalChild parentOperationId manifestHash childOperationId "verified"
              (some receipt) none
            enqueuePlane cfg parent.ticketId
            enqueuePlane cfg childId
            let updated ← ask (.getTicket childId)
            pure (updated.or (some child))
        | _ => failClosed cfg childId "remediation_receipt_unavailable" completedAt
  | .ok _ => failClosed cfg childId "remediation_gateway_result_invalid" completedAt

/-- The child ticket of the remediation, which an earlier attempt may have created. -/
def childTicket (parent : Ticket) (repair : ReviewRepair) (originRequestId : Str)
    (existing : Option Ticket) : Process Ticket :=
  match existing with
  | some child => pure child
  | none => do
    let childId ← ask .newId
    let created ← Program.raising (ask (.createTicket
      (remediationTicket parent repair originRequestId childId)))
    match created with
    | some child => pure child
    | none => .raise (.keyError "ticket_id")

/-- The remediation from the child ticket on. -/
def runRemediation (cfg : ReviewConfig) (parent : Ticket) (repair : ReviewRepair)
    (originRequestId completedAt : Str) (child : Ticket) : Process (Option Ticket) := do
  let childId := child.ticketId
  let binding ← .ofExcept (contentHash (.obj [("remediation_request_id", .str originRequestId)]))
  let parentOperationId := text "remediation:" ++ binding
  let childOperationId := text "remediation-effect:" ++ binding
  appendEntryProcess childId originRequestId .userRequest "system"
    (some (text "ticket_review_worker")) (some repair.reason)
    (.obj [("capability", .str repair.capability), ("entities", .obj repair.entities),
      ("parent_ticket_id", .str parent.ticketId), ("operation_id", .str childOperationId)])
    (text "ticket:" ++ childId ++ text ":remediation-request")
  let _ ← transitionProcess { ticketId := childId, status := .executing }
  let _ ← transitionProcess
    { ticketId := parent.ticketId, status := .remediationQueued
      terminalReason := some (text "child_remediation:" ++ childId) }
  appendEntryProcess parent.ticketId originRequestId .remediationCreated "system"
    (some (text "ticket_review_worker")) none
    (.obj [("child_ticket_id", .str childId), ("child_operation_id", .str childOperationId),
      ("capability", .str repair.capability)])
    (text "ticket:" ++ parent.ticketId ++ text ":child:" ++ childId)
  let hashes ← .ofExcept (remediationHashes parent repair)
  let manifest ← .ofExcept (normalizeExecutionManifest
    (remediationManifest parent repair hashes parentOperationId childOperationId))
  let manifestHash ← .ofExcept (contentHash (.obj manifest.fields))
  let entryId ← ask .newId
  let _ ← Program.raising (ask (.reserve
    { entryId, ticketId := childId, requestId := originRequestId
      manifest := .obj manifest.fields }))
  if cfg.hasGateway = false then
    failClosed cfg childId "remediation_execution_gateway_unavailable" completedAt
  else do
    let execution ← ask (.executeRemediation childOperationId repair.capability repair.entities)
    settleRemediation cfg parent child originRequestId parentOperationId childOperationId
      manifestHash completedAt execution

/-- `RemediationService.execute`. -/
def remediate (cfg : ReviewConfig) (parent : Ticket) (repair : ReviewRepair) (completedAt : Str) :
    Process (Option Ticket) := do
  let entitiesHash ← .ofExcept (contentHash (.obj repair.entities))
  let originRequestId := remediationRequestId parent repair entitiesHash
  let existing ← ask (.getTicketByRequestId originRequestId)
  let receipts ← match existing with
    | some child => ask (.listReceipts child.ticketId)
    | none => pure []
  if receipts ≠ [] then pure existing
  else do
    let child ← childTicket parent repair originRequestId existing
    runRemediation cfg parent repair originRequestId completedAt child

end HardyAI.Tickets
