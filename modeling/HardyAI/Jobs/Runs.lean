import HardyAI.Foundation.Trace
import HardyAI.Jobs.Repository
import Mathlib.Logic.Relation

/-! Runs of the ledger: any workers call its operations in any order, and each
call is one step. What a call can do to the row of a job is listed once. -/

open Foundation Foundation.Json Foundation.Trace

namespace HardyAI.Jobs

variable [PythonText]

inductive Call
  | enqueueJob (a : EnqueueArgs) (now : Instant)
  | claimJobs (jobType workerId : Str) (limit : Int) (leaseSeconds : Seconds) (now : Instant)
  | completeJob (jobId workerId : Str) (token : Option Int) (now : Instant)
  | retryJob (jobId workerId errorCode : Str) (delaySeconds : Seconds) (token : Option Int)
      (now : Instant)
  | deferJob (jobId workerId : Str) (token : Int) (delaySeconds : Seconds)
      (reconcileState : Str) (now : Instant)
  | deadLetterJob (jobId workerId : Str) (token : Int) (errorCode : Str) (now : Instant)
  | renewLease (jobId workerId : Str) (token : Int) (leaseSeconds : Seconds) (now : Instant)
  | updateProgress (jobId workerId : Str) (token : Int) (stage : Str) (current : Int)
      (total : Option Int) (now : Instant)
  | checkpointPayload (jobId workerId : Str) (token : Int) (payload : List (Str × Json))
      (now : Instant)
  | setProviderOperation (jobId workerId : Str) (token : Int)
      (operationRef reconcileState : Str) (now : Instant)
  | acknowledgeCancel (jobId workerId : Str) (token : Int) (now : Instant)
  | releaseJobs (jobType aggregateId reconcileState : Str) (now : Instant)
  | requestCancel (jobId : Str) (now : Instant)
  | requeueJob (jobId : Str) (delaySeconds : Seconds) (now : Instant)

inductive Reply
  | row (r : Option DurableJob)
  | rows (rs : List DurableJob)
  | flag (b : Bool)
  | count (n : Nat)
  deriving DecidableEq

def Reply.claimedRows : Reply → List DurableJob
  | .rows rs => rs
  | .row _ | .flag _ | .count _ => []

def Reply.isTrue : Reply → Bool
  | .flag b => b
  | .row _ | .rows _ | .count _ => false

def Call.run : Call → Transaction JobLedger Reply
  | .enqueueJob a now => (Jobs.enqueueJob a now).mapReply (.row ∘ some)
  | .claimJobs jobType workerId limit lease now =>
      (Jobs.claimJobs jobType workerId limit lease now).mapReply .rows
  | .completeJob jobId workerId token now =>
      (Jobs.completeJob jobId workerId token now).mapReply .flag
  | .retryJob jobId workerId errorCode delay token now =>
      (Jobs.retryJob jobId workerId errorCode delay token now).mapReply .flag
  | .deferJob jobId workerId token delay state now =>
      (Jobs.deferJob jobId workerId token delay state now).mapReply .flag
  | .deadLetterJob jobId workerId token errorCode now =>
      (Jobs.deadLetterJob jobId workerId token errorCode now).mapReply .flag
  | .renewLease jobId workerId token lease now =>
      (Jobs.renewLease jobId workerId token lease now).mapReply .flag
  | .updateProgress jobId workerId token stage current total now =>
      (Jobs.updateProgress jobId workerId token stage current total now).mapReply .flag
  | .checkpointPayload jobId workerId token payload now =>
      (Jobs.checkpointPayload jobId workerId token payload now).mapReply .flag
  | .setProviderOperation jobId workerId token operation state now =>
      (Jobs.setProviderOperation jobId workerId token operation state now).mapReply .flag
  | .acknowledgeCancel jobId workerId token now =>
      (Jobs.acknowledgeCancel jobId workerId token now).mapReply .flag
  | .releaseJobs jobType aggregateId state now =>
      (Jobs.releaseJobs jobType aggregateId state now).mapReply .count
  | .requestCancel jobId now => (Jobs.requestCancel jobId now).mapReply .row
  | .requeueJob jobId delay now => (Jobs.requeueJob jobId delay now).mapReply .row

/-- The ledger after one call, which a failing call leaves as it was. -/
def step (l : JobLedger) (c : Call) : JobLedger := c.run.commit l

/-- The ledger after a run from the empty one. -/
def ledgerAfter (cs : List Call) : JobLedger := run step .empty cs

/-- The rows that a claim returns. -/
def Call.claimed (c : Call) (l : JobLedger) : List DurableJob :=
  match c.run.reply l with
  | .ok reply => reply.claimedRows
  | .error _ => []

def Call.claims (c : Call) (l : JobLedger) (j : Str) : Bool :=
  (c.claimed l).any (·.jobId = j)

/-- The call returns `True`. -/
def Call.succeeds (c : Call) (l : JobLedger) : Bool :=
  match c.run.reply l with
  | .ok reply => reply.isTrue
  | .error _ => false

def Call.defers (c : Call) (l : JobLedger) (j : Str) : Bool :=
  match c with
  | .deferJob jobId .. => jobId = j && c.succeeds l
  | _ => false

/-- The call requeues the job: `requeue_job` finds it dead-lettered or cancelled. -/
def Call.requeues (c : Call) (l : JobLedger) (j : Str) : Bool :=
  match c with
  | .requeueJob jobId .. => jobId = j && (c.run.reply l).isOk && (l.find? j).any requeueable
  | _ => false

def Call.creates (c : Call) (l : JobLedger) (j : Str) : Bool :=
  (l.find? j).isNone && ((step l c).find? j).isSome

/-- The changes of a row that neither claim, defer nor requeue it. -/
inductive RowStep : DurableJob → DurableJob → Prop
  | sweptCancelled {r : DurableJob} (now : Str) (h : cancelPending r = true) :
      RowStep r ((JobAssignment.sweepCancelled now).apply r)
  | sweptDeadline {r : DurableJob} (now : Str) (h : deadlinePassed now r = true) :
      RowStep r ((JobAssignment.sweepDeadline now).apply r)
  | sweptExpired {r : DurableJob} (now : Str) (h : leaseExpired now r = true) :
      RowStep r ((JobAssignment.sweepExpired now).apply r)
  | completed {r : DurableJob} (now : Str) (hrun : r.status = .running)
      (hcancel : r.cancelRequestedAt = none) :
      RowStep r ((JobAssignment.complete now).apply r)
  | retried {r : DurableJob} (availableAt errorCode now : Str) (howner : r.leaseOwner.isSome) :
      RowStep r ((JobAssignment.retryAs r availableAt errorCode now).apply r)
  | deadLettered {r : DurableJob} (errorCode now : Str) (hrun : r.status = .running) :
      RowStep r ((JobAssignment.deadLetter errorCode now).apply r)
  | renewed {r : DurableJob} (leaseEnd now : Str) (hrun : r.status = .running) :
      RowStep r ((JobAssignment.renew leaseEnd now).apply r)
  | progressed {r : DurableJob} (stage : Str) (current : Int) (total : Option Int) (now : Str)
      (hrun : r.status = .running) (htotal : ∀ t ∈ total, current ≤ t) :
      RowStep r ((JobAssignment.progress stage current total now).apply r)
  | checkpointed {r : DurableJob} (payloadJson now : Str) (hrun : r.status = .running) :
      RowStep r ((JobAssignment.checkpoint payloadJson now).apply r)
  | providerSet {r : DurableJob} (operation state now : Str) (hrun : r.status = .running) :
      RowStep r ((JobAssignment.setProvider operation state now).apply r)
  | cancelAcknowledged {r : DurableJob} (now : Str) (hrun : r.status = .running)
      (hcancel : r.cancelRequestedAt.isSome) :
      RowStep r ((JobAssignment.acknowledgeCancel now).apply r)
  | released {r : DurableJob} (state now : Str) (hwait : r.waiting = true) :
      RowStep r ((JobAssignment.release state now).apply r)
  | cancelRequested {r : DurableJob} (now : Str) (h : r.finished = false) :
      RowStep r ((JobAssignment.requestCancel now).apply r)

/-- What a call did to bring job `j` to the row `r'`. -/
inductive RowCase (c : Call) (l : JobLedger) (j : Str) : DurableJob → Prop
  | created {a : EnqueueArgs} {now : Instant} {r' : DurableJob} (hcall : c = .enqueueJob a now)
      (hnew : l.find? j = none) (hrow : a.row now = .ok r') : RowCase c l j r'
  | claimed {r m : DurableJob} {jobType workerId : Str} {limit : Int} {leaseSeconds : Seconds}
      {at_ : Instant} (hcall : c = .claimJobs jobType workerId limit leaseSeconds at_)
      (lease now : Str) (hold : l.find? j = some r)
      (hsweep : Relation.ReflTransGen RowStep r m) (hready : claimable m = true)
      (hattempt : m.attemptCount < m.maxAttempts)
      (hmem : (JobAssignment.claim workerId lease now).apply m ∈ c.claimed l) :
      RowCase c l j ((JobAssignment.claim workerId lease now).apply m)
  | deferred {r : DurableJob} (availableAt state now : Str) (hold : l.find? j = some r)
      (hrun : r.status = .running) (hcancel : r.cancelRequestedAt = none)
      (hdefers : c.defers l j = true) :
      RowCase c l j ((JobAssignment.defer availableAt state now).apply r)
  | requeued {r : DurableJob} (availableAt now : Str) (hold : l.find? j = some r)
      (hdone : requeueable r = true) (hrequeues : c.requeues l j = true) :
      RowCase c l j ((JobAssignment.requeue availableAt now).apply r)
  | plain {r r' : DurableJob} (hold : l.find? j = some r)
      (hstep : Relation.ReflTransGen RowStep r r') (hclaims : c.claims l j = false)
      (hdefers : c.defers l j = false) (hrequeues : c.requeues l j = false) : RowCase c l j r'

end HardyAI.Jobs
