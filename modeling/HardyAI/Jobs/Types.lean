import HardyAI.Foundation.Json
import HardyAI.Foundation.Instant
import HardyAI.Foundation.Table

/-! The rows of the durable job ledger. Time columns hold the text that
`_iso_utc` writes, which is also what a caller may pass for `available_at`. -/

open Foundation

namespace HardyAI.Jobs

def reviewNotificationDiscordJob : Str := "review.notification.discord.v1"
def reviewActionExecutionJob : Str := "review.action_execution.v1"
def reviewOutcomeDiscordJob : Str := "review.outcome.discord.v1"

inductive JobStatus
  | pending | running | retry | completed | deadLetter | cancelled
  deriving DecidableEq, Repr

inductive ResourceClass
  | cpuSmall | cpuLarge | gpuOcr | gpuVlm
  deriving DecidableEq, Repr

/-- `ResourceClass(value)`. -/
def ResourceClass.ofValue (value : Str) : Except PyError ResourceClass :=
  match [(text "cpu_small", cpuSmall), (text "cpu_large", cpuLarge), (text "gpu_ocr", gpuOcr),
    (text "gpu_vlm", gpuVlm)].lookup value with
  | some resourceClass => .ok resourceClass
  | none => .error (.valueError "not a valid ResourceClass")

structure DurableJob where
  jobId : Str
  jobType : Str
  aggregateId : Str
  idempotencyKey : Str
  payloadJson : Str
  status : JobStatus
  availableAt : Str
  attemptCount : Int
  maxAttempts : Int
  leaseOwner : Option Str
  leaseExpiresAt : Option Str
  lastErrorCode : Option Str
  createdAt : Str
  updatedAt : Str
  leaseFencingToken : Int
  progressCurrent : Int
  progressTotal : Option Int
  currentStage : Option Str
  stageStartedAt : Option Str
  cancelRequestedAt : Option Str
  cancelledAt : Option Str
  priority : Int
  resourceClass : ResourceClass
  providerOperationRef : Option Str
  providerReconcileState : Option Str
  totalDeadlineAt : Option Str
  deriving DecidableEq

/-- `status IN ('pending', 'retry')`. -/
def DurableJob.waiting (r : DurableJob) : Bool := r.status = .pending ∨ r.status = .retry

/-- `status IN ('completed', 'dead_letter', 'cancelled')`. -/
def DurableJob.finished (r : DurableJob) : Bool :=
  r.status = .completed ∨ r.status = .deadLetter ∨ r.status = .cancelled

/-- The lease guard of the fenced writers; a token of `none` is not compared. -/
def DurableJob.leasedBy (r : DurableJob) (workerId : Str) (token : Option Int) : Bool :=
  r.leaseOwner = some workerId ∧ ∀ t ∈ token, r.leaseFencingToken = t

theorem DurableJob.leasedBy_iff {r : DurableJob} {workerId : Str} {token : Option Int} :
    r.leasedBy workerId token = true ↔
      r.leaseOwner = some workerId ∧ ∀ t ∈ token, r.leaseFencingToken = t := by
  simp [leasedBy]

/-- The `durable_jobs` table: `job_id` is its primary key and `idempotency_key`
is unique. -/
structure JobLedger where
  jobs : Table DurableJob.jobId
  idempotencyUnique : (jobs.rows.map DurableJob.idempotencyKey).Nodup

/-- A `SET` clause of the ledger; no statement sets a key column. -/
structure JobAssignment extends Table.Assignment DurableJob.jobId where
  keepsKey (r : DurableJob) : (apply r).idempotencyKey = r.idempotencyKey := by intros; rfl

namespace JobLedger

def empty : JobLedger := ⟨∅, List.nodup_nil⟩

def find? (l : JobLedger) (jobId : Str) : Option DurableJob := l.jobs.find? jobId

def findKey? (l : JobLedger) (idempotencyKey : Str) : Option DurableJob :=
  l.jobs.rows.find? fun r => r.idempotencyKey = idempotencyKey

/-- `UPDATE durable_jobs SET f WHERE g`. -/
def update (l : JobLedger) (g : DurableJob → Bool) (f : JobAssignment) : JobLedger where
  jobs := l.jobs.update g f.toAssignment
  idempotencyUnique := by
    rw [Table.map_update_of_eq l.jobs f.keepsKey]
    exact l.idempotencyUnique

/-- An update of the row `jobId` and whether its `rowcount` is 1. -/
def updateJob (l : JobLedger) (jobId : Str) (g : DurableJob → Bool) (f : JobAssignment) :
    Bool × JobLedger :=
  (l.jobs.count (fun r => r.jobId = jobId && g r) = 1,
    l.update (fun r => r.jobId = jobId && g r) f)

variable {l : JobLedger} {g : DurableJob → Bool} {f : JobAssignment} {jobId : Str}

@[ext] theorem ext {l l' : JobLedger} (h : l.jobs = l'.jobs) : l = l' := by
  cases l; cases l'; simpa using h

@[simp] theorem find?_empty : empty.find? jobId = none := rfl

theorem jobId_of_find? {r : DurableJob} (h : l.find? jobId = some r) : r.jobId = jobId :=
  Table.key_of_find? h

theorem find?_update :
    (l.update g f).find? jobId =
      (l.find? jobId).map fun r => if g r then f.apply r else r :=
  Table.find?_update l.jobs jobId

theorem updateJob_fst :
    (l.updateJob jobId g f).1 = true ↔ ∃ r, l.find? jobId = some r ∧ g r = true := by
  simp only [updateJob, decide_eq_true_eq]
  exact Table.count_key g

theorem find?_updateJob (j : Str) :
    (l.updateJob jobId g f).2.find? j =
      (l.find? j).map fun r => if r.jobId = jobId ∧ g r then f.apply r else r := by
  simp only [updateJob, find?_update, Bool.and_eq_true, decide_eq_true_eq]

theorem find?_updateJob_self {r : DurableJob} (h : l.find? jobId = some r) (hg : g r = true) :
    (l.updateJob jobId g f).2.find? jobId = some (f.apply r) := by
  rw [find?_updateJob, h, Option.map_some, if_pos ⟨jobId_of_find? h, hg⟩]

theorem find?_updateJob_of_ne {j : Str} (hj : j ≠ jobId) :
    (l.updateJob jobId g f).2.find? j = l.find? j := by
  rw [find?_updateJob]
  cases hfind : l.find? j with
  | none => rfl
  | some r =>
    have hne : ¬(r.jobId = jobId ∧ g r = true) := by
      rw [jobId_of_find? hfind]
      exact fun hboth => hj hboth.1
    rw [Option.map_some, if_neg hne]

/-- An update that reports no row has changed nothing. -/
theorem updateJob_snd_of_false (h : (l.updateJob jobId g f).1 = false) :
    (l.updateJob jobId g f).2 = l := by
  ext1
  refine Table.update_eq_self fun r hr => ?_
  by_contra hg
  rw [Bool.not_eq_false, Bool.and_eq_true, decide_eq_true_eq] at hg
  have hfind : l.find? jobId = some r := Table.find?_eq_some.2 ⟨hr, hg.1⟩
  rw [updateJob_fst.2 ⟨r, hfind, hg.2⟩] at h
  exact Bool.noConfusion h

end JobLedger

end HardyAI.Jobs
