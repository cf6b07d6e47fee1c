import HardyAI.Jobs.Repository

/-! The rows of the human review authority: review items, decisions and action
proposals, next to the job ledger in the same database. -/

open Foundation HardyAI.Jobs

namespace HardyAI.Reviews

inductive ReviewKind
  | quality | classification | fieldCorrection | metadataProposal | downstreamAction
  deriving DecidableEq

inductive ReviewState
  | pending | approved | rejected | expired | superseded | applied | executed
  deriving DecidableEq

inductive ReviewDecisionKind
  | approve | reject
  deriving DecidableEq

inductive ActionProposalState
  | pending | approved | executing | executed | rejected | expired | superseded | canceled
  | denied | failedTerminal
  deriving DecidableEq

/-- The states that hold the destination arguments. -/
def ActionProposalState.live : ActionProposalState → Bool
  | .pending | .approved | .executing => true
  | .executed | .rejected | .expired | .superseded | .canceled | .denied | .failedTerminal => false

def ActionProposalState.value : ActionProposalState → Str
  | .pending => "pending"
  | .approved => "approved"
  | .executing => "executing"
  | .executed => "executed"
  | .rejected => "rejected"
  | .expired => "expired"
  | .superseded => "superseded"
  | .canceled => "canceled"
  | .denied => "denied"
  | .failedTerminal => "failed_terminal"

structure ReviewItem where
  reviewId : Str
  reviewKind : ReviewKind
  subjectType : Str
  subjectId : Str
  subjectVersion : Str
  itemHash : Str
  sourceRef : Option Str
  sensitivity : Str
  confidence : Option (BitVec 64)
  validatorSummaryJson : Str
  evidenceRefsJson : Str
  targetOperation : Option Str
  authorizationBinding : Option Str
  state : ReviewState
  expiresAt : Option Str
  supersededByReviewId : Option Str
  createdAt : Str
  updatedAt : Str
  deriving DecidableEq

structure ReviewDecision where
  decisionId : Str
  reviewId : Str
  decision : ReviewDecisionKind
  actorPrincipal : Str
  reason : Str
  decidedAt : Str
  boundItemHash : Str
  editedValueRef : Option Str
  idempotencyKey : Str
  appliedAt : Option Str
  actionReceiptRef : Option Str
  deriving DecidableEq

/-- The columns of a proposal that its request fixes. -/
structure ProposalBinding where
  idempotencyKey : Str
  proposalHash : Str
  rootRequestId : Str
  operationId : Str
  callOrdinal : Int
  sessionId : Str
  principalKind : Str
  principalSubject : Str
  externalUserId : Str
  requesterUserId : Str
  agentId : Str
  sourceInterface : Str
  channelScope : Str
  skillId : Str
  toolId : Str
  contractVersion : Int
  descriptorHash : Str
  resourceVersion : Str
  authorizationBinding : Str
  argumentsHash : Str
  destinationArgumentsHash : Str
  effect : Str
  effectCardinality : Str
  sensitivity : Str
  persistence : Str
  destinationPurpose : Str
  approverPrincipal : Str
  safeActionSummary : Str
  riskSummary : Str
  batchManifestHash : Option Str
  transferBindingHash : Option Str
  expiresAt : Str
  deriving DecidableEq

structure ActionApprovalProposalRequest extends ProposalBinding where
  destinationArguments : List (Str × Json)
  batchManifest : Option (List (Str × Json))
  transferManifest : Option (List (Str × Json))
  deriving DecidableEq

structure ActionProposal extends ProposalBinding where
  proposalId : Str
  reviewId : Str
  destinationArgumentsJson : Option Str
  batchManifestJson : Option Str
  transferManifestJson : Option Str
  state : ActionProposalState
  notificationGuildId : Option Str
  notificationChannelId : Option Str
  notificationMessageId : Option Str
  decisionId : Option Str
  decidedByPrincipal : Option Str
  decisionGuildId : Option Str
  decisionChannelId : Option Str
  decisionMessageId : Option Str
  outcomeGuildId : Option Str
  outcomeChannelId : Option Str
  outcomeMessageId : Option Str
  executionJobId : Option Str
  executionFencingToken : Option Int
  actionReceiptRef : Option Str
  terminalReasonCode : Option Str
  createdAt : Str
  updatedAt : Str
  terminalAt : Option Str
  deriving DecidableEq

structure ReviewRequest where
  reviewKind : ReviewKind
  subjectType : Str
  subjectId : Str
  subjectVersion : Str
  itemHash : Str
  sensitivity : Str
  sourceRef : Option Str := none
  confidence : Option (BitVec 64) := none
  validatorSummary : List Json := []
  evidenceRefs : List Str := []
  targetOperation : Option Str := none
  authorizationBinding : Option Str := none
  expiresAt : Option Str := none

/-- A `SET` clause of `action_proposals`; no statement sets a column of the
binding, the identifier or the review. -/
structure ProposalAssignment extends Table.Assignment ActionProposal.proposalId where
  keepsBinding (r : ActionProposal) : (apply r).toProposalBinding = r.toProposalBinding := by
    intros; rfl
  keepsReview (r : ActionProposal) : (apply r).reviewId = r.reviewId := by intros; rfl

/-- The tables that the review repository reads and writes. -/
structure ReviewDb where
  items : Table ReviewItem.reviewId
  decisions : Table ReviewDecision.decisionId
  proposals : Table ActionProposal.proposalId
  jobs : JobLedger

def ReviewDb.empty : ReviewDb := ⟨∅, ∅, ∅, .empty⟩

end HardyAI.Reviews
