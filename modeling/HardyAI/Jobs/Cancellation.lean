import HardyAI.Jobs.LeaseFencing

/-! What is left for a job to do once its cancellation has been requested. -/

open Foundation Foundation.Json Foundation.Trace Relation

namespace HardyAI.Jobs

section Rows

variable {r r' : DurableJob}

/-- A row that is to be cancelled: it still runs, or it has ended without completing. -/
structure Withdrawn (r : DurableJob) : Prop where
  requested : r.cancelRequestedAt.isSome = true
  status : r.status = .running ∨ r.status = .cancelled ∨ r.status = .deadLetter

theorem Withdrawn.waiting_eq_false (h : Withdrawn r) : r.waiting = false := by
  rcases h.status with hs | hs | hs <;> simp [DurableJob.waiting, hs]

theorem Withdrawn.releasedStatus_eq (h : Withdrawn r) : r.releasedStatus = .cancelled := by
  rw [DurableJob.releasedStatus, if_pos h.requested]

theorem RowStep.withdrawn (h : RowStep r r') (hr : Withdrawn r) : Withdrawn r' := by
  have hwaiting := hr.waiting_eq_false
  have hreleased := hr.releasedStatus_eq
  cases h with
  | sweptCancelled now hsweep =>
    rw [cancelPending, hwaiting] at hsweep
    cases hsweep
  | sweptDeadline now hsweep =>
    rw [deadlinePassed, hwaiting] at hsweep
    cases hsweep
  | sweptExpired now hsweep => exact ⟨hr.requested, .inr (.inl hreleased)⟩
  | completed now hrun hcancel =>
    have hrequested := hr.requested
    rw [hcancel] at hrequested
    cases hrequested
  | retried availableAt errorCode now howner => exact ⟨hr.requested, .inr (.inl hreleased)⟩
  | deadLettered errorCode now hrun => exact ⟨hr.requested, .inr (.inr rfl)⟩
  | renewed leaseEnd now hrun => exact ⟨hr.requested, hr.status⟩
  | progressed stage current total now hrun htotal => exact ⟨hr.requested, hr.status⟩
  | checkpointed payloadJson now hrun => exact ⟨hr.requested, hr.status⟩
  | providerSet operation state now hrun => exact ⟨hr.requested, hr.status⟩
  | cancelAcknowledged now hrun hcancel => exact ⟨hr.requested, .inr (.inl rfl)⟩
  | released state now hwait =>
    rw [hwaiting] at hwait
    cases hwait
  | cancelRequested now hopen =>
    refine ⟨rfl, ?_⟩
    simp only [JobAssignment.requestCancel, hwaiting]
    exact hr.status

theorem RowSteps.withdrawn (h : ReflTransGen RowStep r r') (hr : Withdrawn r) : Withdrawn r' := by
  induction h with
  | refl => exact hr
  | tail _ hstep ih => exact hstep.withdrawn ih

/-- The request itself: a waiting row is cancelled at once, a running one goes on. -/
theorem withdrawn_requestCancel (hopen : r.finished = false) (now : Str) :
    Withdrawn ((JobAssignment.requestCancel now).apply r) := by
  refine ⟨rfl, ?_⟩
  by_cases hwaiting : r.waiting = true
  · exact .inr (.inl (by simp [JobAssignment.requestCancel, hwaiting]))
  · refine .inl ?_
    simp only [JobAssignment.requestCancel, hwaiting]
    cases hs : r.status <;> simp_all [DurableJob.finished, DurableJob.waiting]

end Rows

section Calls

variable [PythonText] {c : Call} {l : JobLedger} {jobId : Str} {r : DurableJob}

/-- The calls with which the worker of a job goes on with it. -/
def Call.proceeds (jobId : Str) : Call → Prop
  | .deferJob j .. | .renewLease j .. | .updateProgress j .. | .checkpointPayload j ..
  | .setProviderOperation j .. => j = jobId
  | .enqueueJob .. | .claimJobs .. | .completeJob .. | .retryJob .. | .deadLetterJob ..
  | .acknowledgeCancel .. | .releaseJobs .. | .requestCancel .. | .requeueJob .. => False

omit [PythonText] in
theorem Call.lease_of_proceeds (h : c.proceeds jobId) :
    ∃ workerId token, c.lease? = some (jobId, workerId, some token) := by
  cases c with
  | deferJob | renewLease | updateProgress | checkpointPayload | setProviderOperation =>
    obtain rfl := h
    exact ⟨_, _, rfl⟩
  | _ => exact h.elim

theorem Call.not_requested_of_succeeds (h : c.proceeds jobId) (hsucceeds : c.succeeds l = true) :
    ∃ r, l.find? jobId = some r ∧ r.cancelRequestedAt = none := by
  have hactive : ∀ {workerId : Str} {token : Int} {f : JobAssignment} {b : Bool} {l' : JobLedger},
      (b, l') = l.updateJob jobId (activeLease workerId token) f → b = true →
      ∃ r, l.find? jobId = some r ∧ r.cancelRequestedAt = none := by
    intro workerId token f b l' hpair hb
    obtain ⟨r, hr, hg⟩ := JobLedger.updateJob_fst.1 ((congrArg Prod.fst hpair).symm.trans hb)
    exact ⟨r, hr, (activeLease_iff.1 hg).2.2.2⟩
  cases hrun : c.run l with
  | error e => simp [Call.succeeds, Transaction.reply, hrun, Except.map] at hsucceeds
  | ok p =>
    rw [Call.succeeds_of_run hrun] at hsucceeds
    cases c with
    | deferJob =>
      obtain rfl := h
      obtain ⟨b, hop, hreply⟩ := mapReply_eq_ok hrun
      obtain ⟨availableAt, hpair⟩ := deferJob_spec hop
      exact hactive hpair (by rwa [← hreply] at hsucceeds)
    | renewLease =>
      obtain rfl := h
      obtain ⟨b, hop, hreply⟩ := mapReply_eq_ok hrun
      obtain ⟨leaseEnd, hpair⟩ := renewLease_spec hop
      exact hactive hpair (by rwa [← hreply] at hsucceeds)
    | updateProgress =>
      obtain rfl := h
      obtain ⟨b, hop, hreply⟩ := mapReply_eq_ok hrun
      exact hactive (updateProgress_spec hop) (by rwa [← hreply] at hsucceeds)
    | checkpointPayload =>
      obtain rfl := h
      obtain ⟨b, hop, hreply⟩ := mapReply_eq_ok hrun
      obtain ⟨encoded, hpair⟩ := checkpointPayload_spec hop
      exact hactive hpair (by rwa [← hreply] at hsucceeds)
    | setProviderOperation =>
      obtain rfl := h
      obtain ⟨b, hop, hreply⟩ := mapReply_eq_ok hrun
      exact hactive (setProviderOperation_spec hop) (by rwa [← hreply] at hsucceeds)
    | _ => exact h.elim

/-- The call returns `False`, or raises for arguments that no ledger accepts. -/
def Call.Refused (c : Call) (l : JobLedger) : Prop :=
  c.run.reply l = .ok (.flag false) ∨
    ∃ e, c.run.reply l = .error e ∧ ∀ l', c.run.reply l' ≠ .ok (.flag true)

theorem Call.succeeds_of_reply {l : JobLedger} (h : c.run.reply l = .ok (.flag true)) :
    c.succeeds l = true := by
  rw [Call.succeeds, h]
  rfl

theorem Call.refused_of_requested (hfind : l.find? jobId = some r)
    (hrequested : r.cancelRequestedAt.isSome = true) (h : c.proceeds jobId) : c.Refused l := by
  obtain ⟨workerId, token, hlease⟩ := Call.lease_of_proceeds h
  have hfalse : c.succeeds l = false := by
    rw [← Bool.not_eq_true]
    intro hsucceeds
    obtain ⟨r', hr', hnone⟩ := Call.not_requested_of_succeeds h hsucceeds
    rw [hfind, Option.some.injEq] at hr'
    rw [hr', hnone] at hrequested
    cases hrequested
  rcases Call.reply_of_lease (l := l) hlease with hreply | ⟨e, herr⟩
  · exact .inl (by rw [hreply, hfalse])
  · refine .inr ⟨e, herr, fun l' htrue => ?_⟩
    obtain ⟨p, hp⟩ := Call.run_ok_of_succeeds hlease (Call.succeeds_of_reply htrue) l
    simp [Transaction.reply, hp, Except.map] at herr

omit [PythonText] in
theorem not_claimable_of_withdrawn {m : DurableJob} (hm : Withdrawn m) : claimable m = false := by
  rw [claimable, hm.waiting_eq_false, Bool.false_and]

/-- No call claims a withdrawn job. -/
theorem Call.claims_eq_false_of_withdrawn (hfind : l.find? jobId = some r) (hr : Withdrawn r)
    (c : Call) : c.claims l jobId = false := by
  rw [← Bool.not_eq_true]
  intro hclaims
  obtain ⟨r', hmem, hkey⟩ := List.any_eq_true.1 hclaims
  rw [decide_eq_true_eq] at hkey
  cases c with
  | claimJobs jobType workerId limit lease now =>
    cases hrun : (Call.claimJobs jobType workerId limit lease now).run l with
    | error e => simp [Call.claimed, Transaction.reply, hrun, Except.map] at hmem
    | ok p =>
      obtain ⟨rows, hop, hreply⟩ := mapReply_eq_ok hrun
      obtain ⟨leaseEnd, bounded, hpair⟩ := claimJobs_spec hop
      rw [Call.claimed_of_run hrun, ← hreply, Reply.claimedRows,
        show rows = _ from congrArg Prod.fst hpair, mem_claimRows] at hmem
      obtain ⟨m, hm, -, hready, -⟩ := hmem
      obtain ⟨old, hold, hsweep⟩ := JobLedger.sweep_row hm
      rw [hkey, hfind, Option.some.injEq] at hold
      subst hold
      rw [not_claimable_of_withdrawn (RowSteps.withdrawn hsweep hr)] at hready
      cases hready
  | _ => simp [Call.claimed_eq_nil] at hmem

/-- A call other than a requeue leaves a withdrawn job withdrawn. -/
theorem withdrawn_step (hfind : l.find? jobId = some r) (hr : Withdrawn r)
    (hkept : ∀ delay now, c ≠ .requeueJob jobId delay now) :
    ∃ r', (step l c).find? jobId = some r' ∧ Withdrawn r' := by
  obtain ⟨r', hr'⟩ := Option.isSome_iff_exists.1
    (keeps_step l c jobId (Option.isSome_iff_exists.2 ⟨r, hfind⟩))
  refine ⟨r', hr', ?_⟩
  cases row_cases hr' with
  | created hcall hnew hrow =>
    rw [hfind] at hnew
    cases hnew
  | claimed hcall lease now hold hsweep hready hattempt hmem =>
    rw [hfind, Option.some.injEq] at hold
    subst hold
    rw [not_claimable_of_withdrawn (RowSteps.withdrawn hsweep hr)] at hready
    cases hready
  | deferred availableAt state now hold hrun hcancel hdefers =>
    rw [hfind, Option.some.injEq] at hold
    subst hold
    have hrequested := hr.requested
    rw [hcancel] at hrequested
    cases hrequested
  | requeued availableAt now hold hdone hrequeues =>
    cases c with
    | requeueJob j delay at_ =>
      simp only [Call.requeues, Bool.and_eq_true, decide_eq_true_eq] at hrequeues
      exact absurd (by rw [hrequeues.1.1]) (hkept delay at_)
    | _ => cases hrequeues
  | plain hold hstep hclaims hdefers hrequeues =>
    rw [hfind, Option.some.injEq] at hold
    subst hold
    exact RowSteps.withdrawn hstep hr

/-- Whatever is called after the request, short of a requeue, leaves the job withdrawn. -/
theorem withdrawn_run (hfind : l.find? jobId = some r) (hr : Withdrawn r) (later : List Call)
    (hkept : ∀ c ∈ later, ∀ delay now, c ≠ .requeueJob jobId delay now) :
    ∃ r', (run step l later).find? jobId = some r' ∧ Withdrawn r' := by
  induction later generalizing l r with
  | nil => exact ⟨r, hfind, hr⟩
  | cons c later ih =>
    obtain ⟨r', hfind', hr'⟩ := withdrawn_step hfind hr (hkept c List.mem_cons_self)
    exact ih hfind' hr' fun c' hc' => hkept c' (List.mem_cons_of_mem c hc')

theorem withdrawn_requested {now : Instant} {reply : Reply} (hfind : l.find? jobId = some r)
    (hopen : r.finished = false)
    (hrecorded : (Call.requestCancel jobId now).run.reply l = .ok reply) :
    ∃ r', (step l (.requestCancel jobId now)).find? jobId = some r' ∧ Withdrawn r' := by
  cases hrun : (Call.requestCancel jobId now).run l with
  | error e => simp [Transaction.reply, hrun, Except.map] at hrecorded
  | ok p =>
    obtain ⟨row, hop, -⟩ := mapReply_eq_ok hrun
    rcases requestCancel_spec hop with ⟨-, hfinished⟩ | ⟨old, hold, -, hafter⟩
    · rw [hfinished r hfind] at hopen
      cases hopen
    · refine ⟨_, ?_, withdrawn_requestCancel hopen (isoUtc now)⟩
      rw [step_of_run hrun, hafter]
      exact JobLedger.find?_updateJob_self hfind rfl

end Calls

/-- Once a cancellation is recorded for a job that had not ended, and as long as nobody requeues
it, the job runs, is cancelled or is dead-lettered; nobody claims it, and the worker that goes on
with it is refused. -/
theorem cancellation_is_final [PythonText] (cs later : List Call) (jobId : Str) (now : Instant)
    (r : DurableJob) (reply : Reply) (hfind : (ledgerAfter cs).find? jobId = some r)
    (hopen : r.finished = false)
    (hrecorded : (Call.requestCancel jobId now).run.reply (ledgerAfter cs) = .ok reply)
    (hkept : ∀ c ∈ later, ∀ delay at_, c ≠ .requeueJob jobId delay at_) :
    (∃ r', (ledgerAfter (cs ++ .requestCancel jobId now :: later)).find? jobId = some r' ∧
      (r'.status = .running ∨ r'.status = .cancelled ∨ r'.status = .deadLetter)) ∧
    ∀ c : Call, c.claims (ledgerAfter (cs ++ .requestCancel jobId now :: later)) jobId = false ∧
      (c.proceeds jobId → c.Refused (ledgerAfter (cs ++ .requestCancel jobId now :: later))) := by
  obtain ⟨r₁, hfind₁, hr₁⟩ := withdrawn_requested hfind hopen hrecorded
  obtain ⟨r₂, hfind₂, hr₂⟩ := withdrawn_run hfind₁ hr₁ later hkept
  rw [ledgerAfter, run_append, run_cons]
  refine ⟨⟨r₂, hfind₂, hr₂.status⟩, fun c => ⟨?_, ?_⟩⟩
  · exact Call.claims_eq_false_of_withdrawn hfind₂ hr₂ c
  · exact Call.refused_of_requested hfind₂ hr₂.requested

/-- A job that is claimed, and whose cancellation is requested while it runs. -/
def claimedRun : List Call :=
  [.enqueueJob sampleJob ⟨0, zero_lt_maxMicros⟩,
    .claimJobs "task.run" "w1" 10 (.micros 30000000) ⟨1000000, second_lt_maxMicros⟩]

theorem claimedRun_cancellation : ∃ r reply,
    (@ledgerAfter asciiText claimedRun).find? "j1" = some r ∧ r.finished = false ∧
    (@Call.run asciiText (.requestCancel "j1" ⟨2000000, by decide⟩)).reply
      (@ledgerAfter asciiText claimedRun) = .ok reply := by
  have hrow : ∃ r ∈ (@ledgerAfter asciiText claimedRun).find? "j1", r.finished = false := by
    decide +kernel
  have hok : ((@Call.run asciiText (.requestCancel "j1" ⟨2000000, by decide⟩)).reply
      (@ledgerAfter asciiText claimedRun)).isOk = true := by decide +kernel
  obtain ⟨r, hfind, hopen⟩ := hrow
  cases hreply : (@Call.run asciiText (.requestCancel "j1" ⟨2000000, by decide⟩)).reply
      (@ledgerAfter asciiText claimedRun) with
  | error e =>
    rw [hreply] at hok
    cases hok
  | ok reply => exact ⟨r, reply, hfind, hopen, rfl⟩

theorem cancellation_is_final_claimedRun :
    ∃ r, (@ledgerAfter asciiText (claimedRun ++ .requestCancel "j1" ⟨2000000, by decide⟩ ::
        [.retryJob "j1" "w1" "late" (.micros 0) (some 1) ⟨3000000, by decide⟩])).find? "j1" =
          some r ∧
      (r.status = .running ∨ r.status = .cancelled ∨ r.status = .deadLetter) := by
  obtain ⟨r, reply, hfind, hopen, hrecorded⟩ := claimedRun_cancellation
  exact (@cancellation_is_final asciiText claimedRun
    [.retryJob "j1" "w1" "late" (.micros 0) (some 1) ⟨3000000, by decide⟩] "j1"
    ⟨2000000, by decide⟩ r reply hfind hopen hrecorded (by simp)).1

/-- The worker of a cancelled job that reports progress at a blank stage meets a `ValueError`. -/
theorem cancelled_progress_raises :
    ¬ ∀ (cs later : List Call) (jobId : Str) (now : Instant) (r : DurableJob) (reply : Reply),
      (@ledgerAfter asciiText cs).find? jobId = some r → r.finished = false →
      (@Call.run asciiText (.requestCancel jobId now)).reply (@ledgerAfter asciiText cs) =
        .ok reply →
      (∀ c ∈ later, ∀ j delay at_, c ≠ .requeueJob j delay at_) →
      ∀ c : Call, c.proceeds jobId → (@Call.run asciiText c).reply
        (@ledgerAfter asciiText (cs ++ .requestCancel jobId now :: later)) = .ok (.flag false) := by
  intro h
  obtain ⟨r, reply, hfind, hopen, hrecorded⟩ := claimedRun_cancellation
  have hreply := h claimedRun [] "j1" ⟨2000000, by decide⟩ r reply hfind hopen hrecorded
    (by simp) (.updateProgress "j1" "w1" 1 "" 0 none ⟨3000000, by decide⟩) rfl
  exact absurd hreply (by decide +kernel)

end HardyAI.Jobs
