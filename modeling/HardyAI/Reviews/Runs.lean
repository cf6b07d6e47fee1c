import HardyAI.Foundation.Trace
import HardyAI.Jobs.Runs
import HardyAI.Reviews.Repository

/-! Runs of the review database: operations of the review repository and of the
job ledger in any order. What a call can do to a proposal and its review item is
listed once. -/

open Foundation Foundation.Json Foundation.Trace HardyAI.Jobs

namespace HardyAI.Reviews

variable [PythonText]

inductive Call
  | job (c : Jobs.Call)
  | expireDue (observed : Str)
  | createActionProposal (request : ActionApprovalProposalRequest) (fresh : Fresh)
  | markActionNotificationDelivered (proposalId destinationPurpose guildId channelId
      messageId : Str) (now : Instant)
  | decideActionProposal (d : DecisionRequest) (fresh : Fresh)
  | beginActionExecution (proposalId jobId workerId : Str) (fencingToken : Int) (observed : Str)
  | finishActionExecution (proposalId jobId workerId : Str) (fencingToken : Int)
      (outcome : ActionProposalState) (reasonCode : Str) (receiptRef : Option Str) (fresh : Fresh)
  | markActionOutcomeDelivered (proposalId destinationPurpose guildId channelId
      messageId : Str) (now : Instant)
  | retryActionExecutionAfterNoEffect (proposalId jobId workerId : Str) (fencingToken : Int)
      (reconciliation : Str) (now : Instant)
  | cancelApprovedAction (proposalId reasonCode : Str) (now : Instant)
  | create (request : ReviewRequest) (fresh : Fresh)
  | decide (reviewId boundItemHash : Str) (decision : ReviewDecisionKind)
      (actorPrincipal reason idempotencyKey : Str) (editedValueRef : Option Str) (fresh : Fresh)
  | supersede (reviewId replacementReviewId : Str) (now : Instant)
  | markApplied (decisionId : Str) (actionReceiptRef : Option Str) (now : Instant)

/-- The review database after one call, which a failing call leaves as it was. -/
def step (db : ReviewDb) : Call → ReviewDb
  | .job c => { db with jobs := Jobs.step db.jobs c }
  | .expireDue observed => (expireDue observed).commit db
  | .createActionProposal request fresh => (createActionProposal request fresh).commit db
  | .markActionNotificationDelivered proposalId purpose guild channel message now =>
      (markActionNotificationDelivered proposalId purpose guild channel message now).commit db
  | .decideActionProposal d fresh => (decideActionProposal d fresh).commit db
  | .beginActionExecution proposalId jobId workerId token observed =>
      (beginActionExecution proposalId jobId workerId token observed).commit db
  | .finishActionExecution proposalId jobId workerId token outcome reason receipt fresh =>
      (finishActionExecution proposalId jobId workerId token outcome reason receipt fresh).commit db
  | .markActionOutcomeDelivered proposalId purpose guild channel message now =>
      (markActionOutcomeDelivered proposalId purpose guild channel message now).commit db
  | .retryActionExecutionAfterNoEffect proposalId jobId workerId token reconciliation now =>
      (retryActionExecutionAfterNoEffect proposalId jobId workerId token reconciliation now).commit
        db
  | .cancelApprovedAction proposalId reason now =>
      (cancelApprovedAction proposalId reason now).commit db
  | .create request fresh => (create request fresh).commit db
  | .decide reviewId itemHash decision actor reason key edited fresh =>
      (decide reviewId itemHash decision actor reason key edited fresh).commit db
  | .supersede reviewId replacement now => (supersede reviewId replacement now).commit db
  | .markApplied decisionId receipt now => (markApplied decisionId receipt now).commit db

def dbAfter (cs : List Call) : ReviewDb := run step .empty cs

/-- The columns of a proposal's life cycle are the same. -/
structure Kept (p p' : ActionProposal) : Prop where
  binding : p'.toProposalBinding = p.toProposalBinding
  reviewId : p'.reviewId = p.reviewId
  arguments : p'.destinationArgumentsJson = p.destinationArgumentsJson
  state : p'.state = p.state
  terminalAt : p'.terminalAt = p.terminalAt
  job : p'.executionJobId = p.executionJobId
  token : p'.executionFencingToken = p.executionFencingToken

omit [PythonText] in
theorem Kept.refl (p : ActionProposal) : Kept p p := ⟨rfl, rfl, rfl, rfl, rfl, rfl, rfl⟩

/-- What a call did to a proposal `p` and its review item. -/
inductive ProposalCase (c : Call) (db : ReviewDb) (p : ActionProposal) (item : ReviewItem) :
    ActionProposal → ReviewItem → Prop
  | kept {p' : ActionProposal} (h : Kept p p') : ProposalCase c db p item p' item
  | expired (observed : Str) (hcall : c = .expireDue observed) (hstate : p.state = .pending) :
      ProposalCase c db p item ((closeProposal .expired "approval_expired" observed).apply p)
        ((moveItem .expired observed).apply item)
  | lapsed (observed : Str) (hcall : c = .expireDue observed) (hstate : p.state = .approved) :
      ProposalCase c db p item ((closeProposal .expired "approval_expired" observed).apply p) item
  | decided (d : DecisionRequest) (fresh : Fresh) (hcall : c = .decideActionProposal d fresh)
      (hstate : p.state = .pending) (jobId : Option Str) :
      ProposalCase c db p item
        ((recordDecision d fresh.decisionId jobId (isoUtc fresh.now)).apply p)
        ((moveItem (decidedState d.decision) (isoUtc fresh.now)).apply item)
  | began (jobId workerId : Str) (token : Int) (observed : Str)
      (hcall : c = .beginActionExecution p.proposalId jobId workerId token observed)
      (hstate : p.state = .approved)
      (hheld : jobHeld (db.jobs.find? jobId) workerId token = true)
      (hjob : p.executionJobId.getD [] = jobId) :
      ProposalCase c db p item ((startExecution token observed).apply p) item
  | finished (jobId workerId : Str) (token : Int) (outcome : ActionProposalState) (reason : Str)
      (receipt : Option Str) (fresh : Fresh)
      (hcall : c = .finishActionExecution p.proposalId jobId workerId token outcome reason
        receipt fresh)
      (houtcome : outcome = .executed ∨ outcome = .denied ∨ outcome = .failedTerminal)
      (hstate : p.state = .executing) :
      ProposalCase c db p item
        ((finishExecution outcome (normalizedReceipt receipt) reason (isoUtc fresh.now)).apply p)
        (if outcome = .executed then (moveItem .executed (isoUtc fresh.now)).apply item else item)
  | reopened (jobId workerId : Str) (token : Int) (reconciliation : Str) (now : Instant)
      (hcall : c = .retryActionExecutionAfterNoEffect p.proposalId jobId workerId token
        reconciliation now)
      (hstate : p.state = .executing) (hjob : p.executionJobId = some jobId)
      (htoken : p.executionFencingToken = some token) :
      ProposalCase c db p item ((reopenExecution (isoUtc now)).apply p) item
  | canceled (reason : Str) (now : Instant)
      (hcall : c = .cancelApprovedAction p.proposalId reason now) (hstate : p.state = .approved) :
      ProposalCase c db p item
        ((closeProposal .canceled ((orDefault reason "operator_canceled").take 120)
          (isoUtc now)).apply p) item
  | superseded (replacement : Str) (now : Instant)
      (hcall : c = .supersede p.reviewId replacement now) (hstate : p.state = .pending) :
      ProposalCase c db p item
        ((closeProposal .superseded "approval_superseded" (isoUtc now)).apply p)
        ((supersedeItem replacement (isoUtc now)).apply item)

/-- The arguments, the terminal time and the review item of a proposal agree with its state. -/
structure PairValid (p : ActionProposal) (item : ReviewItem) : Prop where
  arguments : p.destinationArgumentsJson.isSome = true ↔ p.state.live = true
  terminal : p.terminalAt.isSome = true ↔ p.state.live = false
  expires : item.expiresAt = some p.expiresAt
  pending : p.state = .pending ↔ item.state = .pending

structure DbValid (db : ReviewDb) : Prop where
  paired : ∀ p ∈ db.proposals.rows, ∃ item, db.item? p.reviewId = some item ∧ PairValid p item
  apart : (db.proposals.rows.map ActionProposal.reviewId).Nodup

omit [PythonText] in
theorem ProposalCase.valid {c : Call} {db : ReviewDb} {p p' : ActionProposal}
    {item item' : ReviewItem} (h : ProposalCase c db p item p' item') (hv : PairValid p item) :
    p'.reviewId = p.reviewId ∧ PairValid p' item' := by
  cases h with
  | kept h =>
    refine ⟨h.reviewId, ?_, ?_, ?_, ?_⟩
    · rw [h.arguments, h.state]
      exact hv.arguments
    · rw [h.terminalAt, h.state]
      exact hv.terminal
    · rw [h.binding]
      exact hv.expires
    · rw [h.state]
      exact hv.pending
  | expired observed hcall hstate =>
    exact ⟨rfl, by simp [closeProposal, ActionProposalState.live],
      by simp [closeProposal, ActionProposalState.live], hv.expires,
      by simp [closeProposal, moveItem]⟩
  | lapsed observed hcall hstate =>
    have hitem : item.state ≠ .pending := by
      rw [Ne, ← hv.pending, hstate]
      simp
    exact ⟨rfl, by simp [closeProposal, ActionProposalState.live],
      by simp [closeProposal, ActionProposalState.live], hv.expires,
      by simp [closeProposal, hitem]⟩
  | decided d fresh hcall hstate jobId =>
    have harguments := hv.arguments
    rw [hstate] at harguments
    cases hd : d.decision with
    | approve =>
      exact ⟨rfl, by simpa [recordDecision, hd, ActionProposalState.live] using harguments,
        by simp [recordDecision, hd, ActionProposalState.live], hv.expires,
        by simp [recordDecision, hd, moveItem, decidedState]⟩
    | reject =>
      exact ⟨rfl, by simp [recordDecision, hd, ActionProposalState.live],
        by simp [recordDecision, hd, ActionProposalState.live], hv.expires,
        by simp [recordDecision, hd, moveItem, decidedState]⟩
  | began jobId workerId token observed hcall hstate hheld hjob =>
    have harguments := hv.arguments
    have hterminal := hv.terminal
    have hpending := hv.pending
    rw [hstate] at harguments hterminal hpending
    exact ⟨rfl, harguments, hterminal, hv.expires, by simp [startExecution, ← hpending]⟩
  | finished jobId workerId token outcome reason receipt fresh hcall houtcome hstate =>
    have hitem : item.state ≠ .pending := by
      rw [Ne, ← hv.pending, hstate]
      simp
    rcases houtcome with rfl | rfl | rfl <;>
    exact ⟨rfl, by simp [finishExecution, ActionProposalState.live],
      by simp [finishExecution, ActionProposalState.live], hv.expires,
      by simp [finishExecution, moveItem, hitem]⟩
  | reopened jobId workerId token reconciliation now hcall hstate hjob htoken =>
    have harguments := hv.arguments
    have hterminal := hv.terminal
    have hpending := hv.pending
    rw [hstate] at harguments hterminal hpending
    exact ⟨rfl, harguments, hterminal, hv.expires, by simp [reopenExecution, ← hpending]⟩
  | canceled reason now hcall hstate =>
    have hitem : item.state ≠ .pending := by
      rw [Ne, ← hv.pending, hstate]
      simp
    exact ⟨rfl, by simp [closeProposal, ActionProposalState.live],
      by simp [closeProposal, ActionProposalState.live], hv.expires,
      by simp [closeProposal, hitem]⟩
  | superseded replacement now hcall hstate =>
    exact ⟨rfl, by simp [closeProposal, ActionProposalState.live],
      by simp [closeProposal, ActionProposalState.live], hv.expires,
      by simp [closeProposal, supersedeItem]⟩

end HardyAI.Reviews
