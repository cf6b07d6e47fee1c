import HardyAI.Skills.OperationIdentity
import HardyAI.Foundation.Trace

/-! The steps of the main tool loop: one turn for each answer of the model, until a limit, an
answer or a failure stops the run. What the model answers, once it is parsed and checked, and
what a dispatched call comes back with are the inputs of a turn. -/

open Foundation Foundation.Json Foundation.Trace HardyAI.Skills

namespace HardyAI.Core

section Observations

inductive ObservationStatus
  | ok | needsInput | waitingForApproval | queued | denied | retryableError | terminalError
  deriving DecidableEq

def ObservationStatus.value : ObservationStatus → Str
  | .ok => "ok"
  | .needsInput => "needs_input"
  | .waitingForApproval => "waiting_for_approval"
  | .queued => "queued"
  | .denied => "denied"
  | .retryableError => "retryable_error"
  | .terminalError => "terminal_error"

structure ToolObservation where
  status : ObservationStatus
  observationRef : Str
  payload : List (Str × Json)
  safeMessage : Str
  missingFields : List Str
  retryable : Bool
  committedEffect : Bool
  receiptRefs : List Str
  reviewRefs : List Str
  jobRefs : List Str
  untrusted : Bool
  operationId : Str
  deriving DecidableEq

def texts (items : List Str) : Json := .arr (items.map .str)

/-- `to_model_dict`, without the operation that the server has chosen. -/
def ToolObservation.toModelDict (o : ToolObservation) : Json :=
  .obj [("status", .str o.status.value), ("observation_ref", .str o.observationRef),
    ("payload", .obj o.payload), ("safe_message", .str o.safeMessage),
    ("missing_fields", texts o.missingFields), ("retryable", .bool o.retryable),
    ("committed_effect", .bool o.committedEffect), ("receipt_refs", texts o.receiptRefs),
    ("review_refs", texts o.reviewRefs), ("job_refs", texts o.jobRefs),
    ("untrusted", .bool o.untrusted)]

end Observations

section Turns

structure LoopLimits where
  maxSteps : Nat := 8
  maxFailures : Nat := 2
  maxIdenticalReadCalls : Nat := 2
  maxObservationChars : Nat := 8000
  maxTotalObservationChars : Nat := 24000

/-- A call step that has passed its checks, with what its dispatch comes back with: nothing to
observe in the shadow mode, or an observation of the operation. -/
structure CallStep where
  descriptor : ToolDescriptor
  arguments : List (Str × Json)
  persistence : Persistence
  dispatched : Str → Except PyError (Option ToolObservation)

inductive ModelTurn
  | invalid
  | respond
  | contractChanged
  | clarify (d : ToolDescriptor)
  | rejected (d : ToolDescriptor)
  | call (c : CallStep)

/-- A turn starts with a look at the clock. -/
inductive Turn
  | deadline
  | answer (m : ModelTurn)

inductive Stop
  | deadlineExceeded | responded | contractChanged | clarified | identicalReadLimit
  | shadowBlocked | observationLimit | limit
  | tool (status : ObservationStatus)
  | raised (e : PyError)
  deriving DecidableEq

structure CallKey where
  toolId : Str
  contractVersion : Int
  argumentsHash : Str
  deriving DecidableEq

inductive Answer
  | dispatched (observation : Option ToolObservation)
  | replayed (observation : ToolObservation)
  deriving DecidableEq

/-- A call step of the run with its answer. -/
structure CallRecord where
  descriptor : ToolDescriptor
  arguments : List (Str × Json)
  answer : Answer

def CallRecord.effectful (r : CallRecord) : Bool := r.descriptor.effect ≠ .read

structure LoopState where
  steps : Nat
  failures : Nat
  callOrdinal : Nat := 0
  observations : List ToolObservation := []
  totalObservationChars : Nat := 0
  acceptedEffectful : List (CallKey × ToolObservation) := []
  readCalls : List CallKey := []
  operationIds : List Str := []
  receiptRefs : List Str := []
  policies : List Persistence := []
  committedEffectCount : Nat := 0
  calls : List CallRecord := []
  stopped : Option Stop := none

def LoopState.accepted? (s : LoopState) (key : CallKey) : Option ToolObservation :=
  (s.acceptedEffectful.find? fun p => p.1 = key).map Prod.snd

def LoopState.stop (s : LoopState) (reason : Stop) : LoopState := { s with stopped := some reason }

variable [PythonText]

def addNew (refs : List Str) (ref : Str) : List Str := if ref ∈ refs then refs else refs ++ [ref]

/-- What an observation leaves in the state, before the limits are looked at. -/
def observe (c : CallStep) (key : CallKey) (o : ToolObservation) (chars : Nat)
    (s : LoopState) : LoopState :=
  { s with
    observations := s.observations ++ [o]
    totalObservationChars := s.totalObservationChars + chars
    operationIds := addNew s.operationIds o.operationId
    receiptRefs := o.receiptRefs.foldl addNew s.receiptRefs
    acceptedEffectful := if c.descriptor.effect ≠ .read ∧
        (o.committedEffect = true ∨ o.status = .ok) then
      s.acceptedEffectful ++ [(key, o)] else s.acceptedEffectful
    committedEffectCount := if c.descriptor.effect ≠ .read ∧ o.committedEffect = true then
      s.committedEffectCount + 1 else s.committedEffectCount }

/-- The limits and the status of an observation decide whether the loop goes on. -/
def afterObservation (l : LoopLimits) (c : CallStep) (o : ToolObservation) (chars : Nat)
    (s : LoopState) : LoopState :=
  if min c.descriptor.maxObservationChars l.maxObservationChars < (chars : Int) ∨
      l.maxTotalObservationChars < s.totalObservationChars then s.stop .observationLimit
  else match o.status with
    | .denied | .waitingForApproval | .queued => s.stop (.tool o.status)
    | .terminalError | .retryableError => { s with failures := s.failures + 1 }
    | .ok | .needsInput => s

def record (c : CallStep) (answer : Answer) (s : LoopState) : LoopState :=
  { s with calls := s.calls ++ [⟨c.descriptor, c.arguments, answer⟩] }

/-- The part of a turn in which a call is dispatched. -/
def dispatch (l : LoopLimits) (rootRequestId : Str) (c : CallStep) (key : CallKey)
    (s : LoopState) : LoopState :=
  let s := { s with callOrdinal := s.callOrdinal + 1 }
  let reply : Except PyError (Option ToolObservation) := do
    let identity ← toolOperationId rootRequestId c.descriptor.toolId c.descriptor.contractVersion
      s.callOrdinal c.arguments
    c.dispatched identity.operationId
  match reply with
  | .error e => (record c (.dispatched none) s).stop (.raised e)
  | .ok none => (record c (.dispatched none) s).stop .shadowBlocked
  | .ok (some o) =>
    let s := record c (.dispatched (some o)) s
    match canonicalJson o.toModelDict with
    | .error e => s.stop (.raised e)
    | .ok projection => afterObservation l c o projection.length (observe c key o projection.length s)

/-- An effectful call that was accepted before is answered by its observation. -/
def acceptEffectful (l : LoopLimits) (rootRequestId : Str) (c : CallStep) (key : CallKey)
    (s : LoopState) : LoopState :=
  match s.accepted? key with
  | some o => { record c (.replayed o) s with observations := s.observations ++ [o] }
  | none => dispatch l rootRequestId c key s

def acceptRead (l : LoopLimits) (rootRequestId : Str) (c : CallStep) (key : CallKey)
    (s : LoopState) : LoopState :=
  if l.maxIdenticalReadCalls ≤ s.readCalls.count key then s.stop .identicalReadLimit
  else dispatch l rootRequestId c key { s with readCalls := s.readCalls ++ [key] }

def acceptCall (l : LoopLimits) (rootRequestId : Str) (c : CallStep) (s : LoopState) : LoopState :=
  let s := { s with policies := s.policies ++ [c.descriptor.persistence, c.persistence] }
  match sha256 (.obj c.arguments) with
  | .error e => s.stop (.raised e)
  | .ok argumentsHash =>
    let key : CallKey := ⟨c.descriptor.toolId, c.descriptor.contractVersion, argumentsHash⟩
    if c.descriptor.effect ≠ .read then acceptEffectful l rootRequestId c key s
    else acceptRead l rootRequestId c key s

def modelTurn (l : LoopLimits) (rootRequestId : Str) (s : LoopState) : ModelTurn → LoopState
  | .invalid => { s with failures := s.failures + 1 }
  | .respond => s.stop .responded
  | .contractChanged => s.stop .contractChanged
  | .clarify d => LoopState.stop
      { s with policies := s.policies ++ [d.persistence], callOrdinal := s.callOrdinal + 1 } .clarified
  | .rejected d =>
      { s with policies := s.policies ++ [d.persistence], failures := s.failures + 1 }
  | .call c => acceptCall l rootRequestId c s

/-- One turn of `_run_steps`. -/
def turn (l : LoopLimits) (rootRequestId : Str) (s : LoopState) (t : Turn) : LoopState :=
  if s.stopped.isSome then s
  else if l.maxSteps ≤ s.steps ∨ l.maxFailures ≤ s.failures then s.stop .limit
  else match t with
    | .deadline => s.stop .deadlineExceeded
    | .answer m => modelTurn l rootRequestId { s with steps := s.steps + 1 } m

/-- `_run_steps`. -/
def runSteps (l : LoopLimits) (rootRequestId : Str) (steps failures : Nat) (ts : List Turn) :
    LoopState := run (turn l rootRequestId) { steps, failures } ts

end Turns

end HardyAI.Core
