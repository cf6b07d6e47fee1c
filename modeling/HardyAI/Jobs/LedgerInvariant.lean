import HardyAI.Jobs.RowCases

/-! The invariant of a job row and the count of its attempts, over every run of
the ledger. -/

open Foundation Foundation.Json Foundation.Trace Relation

namespace HardyAI.Jobs

/-- A row is leased exactly while it runs, its attempts stay within their bound,
and a waiting row still has an attempt left. -/
structure JobValid (r : DurableJob) : Prop where
  owner : r.leaseOwner.isSome = true ↔ r.status = .running
  lease : r.leaseExpiresAt.isSome = true ↔ r.status = .running
  attemptNonneg : 0 ≤ r.attemptCount
  attemptLe : r.attemptCount ≤ r.maxAttempts
  maxPos : 1 ≤ r.maxAttempts
  attempted : r.status = .running → 1 ≤ r.attemptCount
  attemptLeft : r.status = .pending ∨ r.status = .retry → r.attemptCount < r.maxAttempts
  cancelled : r.status = .cancelled → r.cancelRequestedAt.isSome ∧ r.cancelledAt.isSome
  progress : ∀ t ∈ r.progressTotal, r.progressCurrent ≤ t

variable {r r' : DurableJob} {now : Str}

theorem DurableJob.waiting_iff (r : DurableJob) :
    r.waiting = true ↔ r.status = .pending ∨ r.status = .retry := by
  simp [waiting]

/-- The status of a released row is waiting only with an attempt left, and cancelled only on
request. -/
theorem DurableJob.releasedStatus_cases (r : DurableJob) :
    r.releasedStatus = .cancelled ∧ r.cancelRequestedAt.isSome = true ∨
    r.releasedStatus = .deadLetter ∧ r.cancelRequestedAt.isSome = false ∨
    r.releasedStatus = .retry ∧ r.cancelRequestedAt.isSome = false ∧
      r.attemptCount < r.maxAttempts := by
  unfold releasedStatus
  split
  · next h => exact .inl ⟨rfl, h⟩
  · next h =>
    split
    · exact .inr (.inl ⟨rfl, by simpa using h⟩)
    · next hlt => exact .inr (.inr ⟨rfl, by simpa using h, by omega⟩)

/-- A row that has given up its lease is valid if its new status allows it. -/
theorem JobValid.of_unleased (hv : JobValid r) (howner : r'.leaseOwner = none) (hlease : r'.leaseExpiresAt = none)
    (hrun : r'.status ≠ .running) (hattempt : r'.attemptCount = r.attemptCount)
    (hmax : r'.maxAttempts = r.maxAttempts)
    (hleft : r'.status = .pending ∨ r'.status = .retry → r.attemptCount < r.maxAttempts)
    (hcancel : r'.status = .cancelled → r'.cancelRequestedAt.isSome ∧ r'.cancelledAt.isSome)
    (hprogress : ∀ t ∈ r'.progressTotal, r'.progressCurrent ≤ t) : JobValid r' where
  owner := by simp [howner, hrun]
  lease := by simp [hlease, hrun]
  attemptNonneg := hattempt ▸ hv.attemptNonneg
  attemptLe := by rw [hattempt, hmax]; exact hv.attemptLe
  maxPos := hmax ▸ hv.maxPos
  attempted h := absurd h hrun
  attemptLeft h := by rw [hattempt, hmax]; exact hleft h
  cancelled := hcancel
  progress := hprogress

/-- A row whose status, lease and attempts stay is valid if its progress is. -/
theorem JobValid.of_same (hv : JobValid r) (hstatus : r'.status = r.status)
    (howner : r'.leaseOwner = r.leaseOwner)
    (hlease : r'.leaseExpiresAt.isSome = r.leaseExpiresAt.isSome)
    (hattempt : r'.attemptCount = r.attemptCount) (hmax : r'.maxAttempts = r.maxAttempts)
    (hcancel : r'.status = .cancelled → r'.cancelRequestedAt.isSome ∧ r'.cancelledAt.isSome)
    (hprogress : ∀ t ∈ r'.progressTotal, r'.progressCurrent ≤ t) : JobValid r' where
  owner := by rw [howner, hstatus]; exact hv.owner
  lease := by rw [hlease, hstatus]; exact hv.lease
  attemptNonneg := hattempt ▸ hv.attemptNonneg
  attemptLe := by rw [hattempt, hmax]; exact hv.attemptLe
  maxPos := hmax ▸ hv.maxPos
  attempted h := hattempt ▸ hv.attempted (hstatus ▸ h)
  attemptLeft h := by
    rw [hattempt, hmax]
    exact hv.attemptLeft (hstatus ▸ h)
  cancelled := hcancel
  progress := hprogress

theorem RowStep.valid (h : RowStep r r') (hv : JobValid r) : JobValid r' := by
  cases h with
  | sweptCancelled now h =>
    simp only [cancelPending, Bool.and_eq_true] at h
    exact hv.of_unleased rfl rfl (by simp [JobAssignment.sweepCancelled]) rfl rfl
      (by simp [JobAssignment.sweepCancelled])
      (by simp [JobAssignment.sweepCancelled, h.2]) hv.progress
  | sweptDeadline now h =>
    exact hv.of_unleased rfl rfl (by simp [JobAssignment.sweepDeadline]) rfl rfl
      (by simp [JobAssignment.sweepDeadline]) (by simp [JobAssignment.sweepDeadline]) hv.progress
  | sweptExpired now h =>
    rcases r.releasedStatus_cases with ⟨hs, hc⟩ | ⟨hs, hc⟩ | ⟨hs, hc, hlt⟩ <;>
    exact hv.of_unleased rfl rfl (by simp [JobAssignment.sweepExpired, hs]) rfl rfl
      (by simp_all [JobAssignment.sweepExpired])
      (by simp [JobAssignment.sweepExpired, hs, hc]) hv.progress
  | completed now hrun hcancel =>
    exact hv.of_unleased rfl rfl (by simp [JobAssignment.complete]) rfl rfl
      (by simp [JobAssignment.complete]) (by simp [JobAssignment.complete])
      (by simp +contextual [JobAssignment.complete])
  | retried availableAt errorCode now howner =>
    rcases r.releasedStatus_cases with ⟨hs, hc⟩ | ⟨hs, hc⟩ | ⟨hs, hc, hlt⟩ <;>
    exact hv.of_unleased rfl rfl (by simp [JobAssignment.retryAs, hs]) rfl rfl
      (by simp_all [JobAssignment.retryAs])
      (by simp [JobAssignment.retryAs, hs, hc]) hv.progress
  | deadLettered errorCode now hrun =>
    exact hv.of_unleased rfl rfl (by simp [JobAssignment.deadLetter]) rfl rfl
      (by simp [JobAssignment.deadLetter]) (by simp [JobAssignment.deadLetter]) hv.progress
  | renewed leaseEnd now hrun =>
    exact hv.of_same rfl rfl (by simpa [JobAssignment.renew] using (hv.lease.2 hrun).symm)
      rfl rfl hv.cancelled hv.progress
  | progressed stage current total now hrun htotal =>
    exact hv.of_same rfl rfl rfl rfl rfl hv.cancelled htotal
  | checkpointed payloadJson now hrun =>
    exact hv.of_same rfl rfl rfl rfl rfl hv.cancelled hv.progress
  | providerSet operation state now hrun =>
    exact hv.of_same rfl rfl rfl rfl rfl hv.cancelled hv.progress
  | cancelAcknowledged now hrun hcancel =>
    exact hv.of_unleased rfl rfl (by simp [JobAssignment.acknowledgeCancel]) rfl rfl
      (by simp [JobAssignment.acknowledgeCancel])
      (by simp [JobAssignment.acknowledgeCancel, hcancel]) hv.progress
  | released state now hwait =>
    exact hv.of_same rfl rfl rfl rfl rfl hv.cancelled hv.progress
  | cancelRequested now hfin =>
    by_cases hwait : r.waiting = true
    · exact hv.of_unleased (by simp [JobAssignment.requestCancel, hwait])
        (by simp [JobAssignment.requestCancel, hwait])
        (by simp [JobAssignment.requestCancel, hwait]) rfl rfl
        (fun _ => hv.attemptLeft (r.waiting_iff.1 hwait))
        (by simp [JobAssignment.requestCancel, hwait]) hv.progress
    · have hcancelled : r.status ≠ .cancelled := by simp_all [DurableJob.finished]
      refine hv.of_same ?_ ?_ ?_ rfl rfl ?_ hv.progress <;>
        simp [JobAssignment.requestCancel, hwait, hcancelled]

theorem JobValid.claim {workerId lease : Str} (hv : JobValid r)
    (hattempt : r.attemptCount < r.maxAttempts) :
    JobValid ((JobAssignment.claim workerId lease now).apply r) where
  owner := by simp [JobAssignment.claim]
  lease := by simp [JobAssignment.claim]
  attemptNonneg := by
    have := hv.attemptNonneg
    simp only [JobAssignment.claim]
    omega
  attemptLe := hattempt
  maxPos := hv.maxPos
  attempted _ := by
    have := hv.attemptNonneg
    simp only [JobAssignment.claim]
    omega
  attemptLeft := by simp [JobAssignment.claim]
  cancelled := by simp [JobAssignment.claim]
  progress := hv.progress

theorem JobValid.defer {availableAt state : Str} (hv : JobValid r) (hrun : r.status = .running) :
    JobValid ((JobAssignment.defer availableAt state now).apply r) where
  owner := by simp [JobAssignment.defer]
  lease := by simp [JobAssignment.defer]
  attemptNonneg := by simp [JobAssignment.defer]
  attemptLe := by
    have := hv.attemptLe
    have := hv.maxPos
    simp only [JobAssignment.defer]
    omega
  maxPos := hv.maxPos
  attempted := by simp [JobAssignment.defer]
  attemptLeft _ := by
    have := hv.attemptLe
    have := hv.attempted hrun
    simp only [JobAssignment.defer]
    omega
  cancelled := by simp [JobAssignment.defer]
  progress := hv.progress

theorem JobValid.requeue {availableAt : Str} (hv : JobValid r) :
    JobValid ((JobAssignment.requeue availableAt now).apply r) where
  owner := by simp [JobAssignment.requeue]
  lease := by simp [JobAssignment.requeue]
  attemptNonneg := le_rfl
  attemptLe := zero_le_one.trans hv.maxPos
  maxPos := hv.maxPos
  attempted := by simp [JobAssignment.requeue]
  attemptLeft _ := hv.maxPos
  cancelled := by simp [JobAssignment.requeue]
  progress := hv.progress

theorem RowSteps.valid (h : ReflTransGen RowStep r r') (hv : JobValid r) : JobValid r' := by
  induction h with
  | refl => exact hv
  | tail _ hstep ih => exact hstep.valid ih

theorem RowStep.attemptCount_eq (h : RowStep r r') : r'.attemptCount = r.attemptCount := by
  cases h <;> rfl

theorem RowSteps.attemptCount_eq (h : ReflTransGen RowStep r r') :
    r'.attemptCount = r.attemptCount := by
  induction h with
  | refl => rfl
  | tail _ hstep ih => exact hstep.attemptCount_eq.trans ih

section Runs

variable [PythonText]

theorem EnqueueArgs.row_valid {a : EnqueueArgs} {now : Instant} (h : a.row now = .ok r) :
    JobValid r ∧ r.attemptCount = 0 ∧ r.leaseFencingToken = 0 ∧
      r.status = .pending := by
  simp only [EnqueueArgs.row, bind_eq_ok, Except.ok.injEq] at h
  obtain ⟨_, _, _, _, _, _, _, _, rfl⟩ := h
  refine ⟨?_, rfl, rfl, rfl⟩
  constructor <;> simp

variable {c : Call} {l : JobLedger} {j : Str}

/-- The claims and the deferrals of a job since it was last enqueued or requeued. -/
structure Tally where
  claims : Nat
  defers : Nat
  deriving DecidableEq

def Tally.next (t : Tally) (l : JobLedger) (c : Call) (j : Str) : Tally :=
  if c.creates l j || c.requeues l j then ⟨0, 0⟩
  else ⟨t.claims + ((c.claimed l).map DurableJob.jobId).count j,
    t.defers + if c.defers l j then 1 else 0⟩

/-- A step of the ledger that also keeps the tally of job `j`. -/
def tallyStep (j : Str) (s : JobLedger × Tally) (c : Call) : JobLedger × Tally :=
  (step s.1 c, s.2.next s.1 c j)

def tallyAfter (cs : List Call) (j : Str) : Tally :=
  (run (tallyStep j) (.empty, ⟨0, 0⟩) cs).2

theorem tally_ledger (cs : List Call) (s : JobLedger × Tally) :
    (run (tallyStep j) s cs).1 = run step s.1 cs := by
  induction cs generalizing s with
  | nil => rfl
  | cons c cs ih => exact ih _

theorem Call.creates_eq_false {r : DurableJob} (h : l.find? j = some r) :
    c.creates l j = false := by
  simp [Call.creates, h]

theorem Call.claimed_eq_nil (h : ∀ jobType workerId limit lease now,
    c ≠ .claimJobs jobType workerId limit lease now) : c.claimed l = [] := by
  cases hrun : c.run l with
  | error e => simp [Call.claimed, Transaction.reply, hrun, Except.map]
  | ok p =>
    obtain ⟨reply, l'⟩ := p
    rw [Call.claimed_of_run hrun]
    cases c with
    | claimJobs jobType workerId limit lease now => exact absurd rfl (h _ _ _ _ _)
    | _ =>
      obtain ⟨a, -, rfl⟩ := mapReply_eq_ok hrun
      rfl

theorem Call.claimed_of_defers (h : c.defers l j = true) : c.claimed l = [] := by
  refine Call.claimed_eq_nil fun _ _ _ _ _ hc => ?_
  simp [hc, Call.defers] at h

theorem Call.count_claimed_of_not_claims (h : c.claims l j = false) :
    ((c.claimed l).map DurableJob.jobId).count j = 0 := by
  rw [List.count_eq_zero, List.mem_map]
  rintro ⟨r, hr, hkey⟩
  rw [Call.claims, List.any_eq_false] at h
  exact h r hr (by simpa using hkey)

/-- The row is valid and its attempts are the tally. -/
def Accounted (j : Str) (s : JobLedger × Tally) : Prop :=
  ∀ r, s.1.find? j = some r →
    JobValid r ∧ r.attemptCount = (s.2.claims : Int) - s.2.defers

theorem accounted_step (s : JobLedger × Tally) (c : Call) (hs : Accounted j s) :
    Accounted j (tallyStep j s c) := by
  obtain ⟨l, t⟩ := s
  intro r' hr'
  have hcase := row_cases hr'
  dsimp only [tallyStep, Tally.next]
  cases hcase with
  | created hcall hnew hrow =>
    have hcreates : c.creates l j = true := by
      simp only [Call.creates, hnew, Option.isNone_none, Bool.true_and]
      exact Option.isSome_iff_exists.2 ⟨r', hr'⟩
    obtain ⟨hvalid, hzero, -⟩ := EnqueueArgs.row_valid hrow
    exact ⟨hvalid, by simpa [hcreates] using hzero⟩
  | @claimed r m jobType workerId limit leaseSeconds at_ hcall lease now hold hsweep hready
      hattempt hmem =>
    obtain ⟨hvalid, hcount⟩ := hs r hold
    dsimp only at hcount
    have hone : ((c.claimed l).map DurableJob.jobId).count j = 1 := by
      have hkey : m.jobId = j := by
        simpa [JobAssignment.claim] using JobLedger.jobId_of_find? hr'
      refine List.count_eq_one_of_mem (c.nodup_claimed l) (List.mem_map.2 ⟨_, hmem, ?_⟩)
      simpa [JobAssignment.claim] using hkey
    have hno : c.requeues l j = false ∧ c.defers l j = false := by subst hcall; exact ⟨rfl, rfl⟩
    refine ⟨(RowSteps.valid hsweep hvalid).claim hattempt, ?_⟩
    have hsame := RowSteps.attemptCount_eq hsweep
    simp only [Call.creates_eq_false hold, hno.1, hno.2, hone, JobAssignment.claim]
    simp only [Bool.or_self, Bool.false_eq_true, if_false]
    omega
  | deferred availableAt state now hold hrun hcancel hdefers =>
    obtain ⟨hvalid, hcount⟩ := hs _ hold
    dsimp only at hcount
    have hrequeue : c.requeues l j = false := by
      cases c <;> simp_all [Call.defers, Call.requeues]
    refine ⟨hvalid.defer hrun, ?_⟩
    have hpos := hvalid.attempted hrun
    simp only [Call.creates_eq_false hold, hrequeue, hdefers, Call.claimed_of_defers hdefers,
      JobAssignment.defer]
    simp only [Bool.or_self, Bool.false_eq_true, if_false, if_true, List.map_nil,
      List.count_nil]
    omega
  | requeued availableAt now hold hdone hrequeues =>
    exact ⟨(hs _ hold).1.requeue, by simp [hrequeues, JobAssignment.requeue]⟩
  | plain hold hstep hclaims hdefers hrequeues =>
    obtain ⟨hvalid, hcount⟩ := hs _ hold
    refine ⟨RowSteps.valid hstep hvalid, ?_⟩
    rw [RowSteps.attemptCount_eq hstep]
    simpa [Call.creates_eq_false hold, hrequeues, hdefers,
      Call.count_claimed_of_not_claims hclaims] using hcount

theorem accounted_run (cs : List Call) (j : Str) :
    Accounted j (run (tallyStep j) (.empty, ⟨0, 0⟩) cs) :=
  run_invariant accounted_step (fun r hr => by simp at hr) cs

theorem reachable_valid {cs : List Call} {r : DurableJob}
    (h : (ledgerAfter cs).find? j = some r) : JobValid r :=
  (accounted_run cs j r (by rwa [tally_ledger])).1

/-- In every reachable ledger every row is leased exactly while it runs, has made as many
attempts as claims less deferrals since it was last put in the queue, and waits only with an
attempt left. -/
theorem ledger_invariant (cs : List Call) (r : DurableJob) (h : r ∈ (ledgerAfter cs).jobs.rows) :
    (r.leaseOwner.isSome = true ↔ r.status = .running) ∧
    (r.leaseExpiresAt.isSome = true ↔ r.status = .running) ∧
    r.attemptCount =
      ((tallyAfter cs r.jobId).claims : Int) - (tallyAfter cs r.jobId).defers ∧
    0 ≤ r.attemptCount ∧ r.attemptCount ≤ r.maxAttempts ∧
    (r.status = .pending ∨ r.status = .retry → r.attemptCount < r.maxAttempts) ∧
    (r.status = .cancelled → r.cancelRequestedAt.isSome = true ∧ r.cancelledAt.isSome = true) ∧
    ∀ t ∈ r.progressTotal, r.progressCurrent ≤ t := by
  have hfind : (run (tallyStep r.jobId) (.empty, ⟨0, 0⟩) cs).1.find? r.jobId = some r := by
    rw [tally_ledger]
    exact Table.find?_of_mem h
  obtain ⟨hvalid, hcount⟩ := accounted_run cs r.jobId r hfind
  exact ⟨hvalid.owner, hvalid.lease, hcount, hvalid.attemptNonneg, hvalid.attemptLe,
    hvalid.attemptLeft, hvalid.cancelled, hvalid.progress⟩

end Runs

def sampleJob : EnqueueArgs where
  jobId := "j1"
  jobType := "task.run"
  aggregateId := "t1"
  idempotencyKey := "k1"
  payload := []

/-- A job that is enqueued, claimed, deferred and claimed again. -/
def deferredRun : List Call :=
  [.enqueueJob sampleJob ⟨0, zero_lt_maxMicros⟩,
    .claimJobs "task.run" "w1" 10 (.micros 30000000) ⟨1000000, second_lt_maxMicros⟩,
    .deferJob "j1" "w1" 1 (.micros 0) "waiting" ⟨2000000, twoSeconds_lt_maxMicros⟩,
    .claimJobs "task.run" "w2" 10 (.micros 30000000) ⟨3000000, threeSeconds_lt_maxMicros⟩]

theorem ledger_invariant_deferredRun :
    ∃ r ∈ (@ledgerAfter asciiText deferredRun).jobs.rows,
      r.status = .running ∧ r.leaseOwner.isSome = true ∧
      r.attemptCount = ((@tallyAfter asciiText deferredRun r.jobId).claims : Int) -
        (@tallyAfter asciiText deferredRun r.jobId).defers := by
  have hrow : ∃ r ∈ (@ledgerAfter asciiText deferredRun).jobs.rows, r.status = .running := by
    decide +kernel
  obtain ⟨r, hmem, hrun⟩ := hrow
  obtain ⟨howner, -, hcount, -⟩ := @ledger_invariant asciiText deferredRun r hmem
  exact ⟨r, hmem, hrun, howner.2 hrun, hcount⟩

end HardyAI.Jobs
