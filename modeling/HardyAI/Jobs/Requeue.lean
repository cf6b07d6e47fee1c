import HardyAI.Jobs.LedgerInvariant

/-! Whether a job that has been requeued is claimed when it is next due. -/

open Foundation Foundation.Json Foundation.Trace Relation

namespace HardyAI.Jobs

section Queue

variable {l : JobLedger} {j jobType now : Str} {r : DurableJob}

/-- The due jobs of a type in the order in which they are claimed. -/
def JobLedger.queue (l : JobLedger) (jobType now : Str) : List Str :=
  ((l.jobs.rows.filter (due jobType now)).insertionSort claimOrder).map DurableJob.jobId

/-- How many due jobs are claimed before a job. -/
def JobLedger.ahead (l : JobLedger) (jobType now j : Str) : Nat :=
  (l.queue jobType now).idxOf j

theorem JobLedger.selectDue_eq_take (limit : Nat) :
    l.selectDue jobType now limit = (l.queue jobType now).take limit := by
  rw [selectDue, queue, List.map_take]

theorem JobLedger.mem_queue (hfind : l.find? j = some r) :
    j ∈ l.queue jobType now ↔ due jobType now r = true := by
  simp only [queue, List.mem_map, List.mem_insertionSort, List.mem_filter]
  constructor
  · rintro ⟨r', ⟨hmem, hdue⟩, hkey⟩
    have hsame : l.find? j = some r' := hkey ▸ Table.find?_of_mem hmem
    rw [hfind, Option.some.injEq] at hsame
    rwa [hsame]
  · intro hdue
    exact ⟨r, ⟨Table.mem_of_find? hfind, hdue⟩, JobLedger.jobId_of_find? hfind⟩

/-- The limit is taken within 1 and 100. -/
theorem JobLedger.mem_selectDue_iff {limit : Int}
    (hlimit : ((l.queue jobType now).length : Int) ≤ limit) :
    j ∈ l.selectDue jobType now (max 1 (min limit 100)).toNat ↔
      j ∈ l.queue jobType now ∧ l.ahead jobType now j < 100 := by
  rw [selectDue_eq_take, ahead]
  constructor
  · intro hmem
    have hqueue := List.mem_of_mem_take hmem
    rw [List.mem_take_iff_idxOf_lt hqueue] at hmem
    exact ⟨hqueue, by omega⟩
  · rintro ⟨hqueue, hahead⟩
    have hlast := List.idxOf_lt_length_iff.2 hqueue
    rw [List.mem_take_iff_idxOf_lt hqueue]
    omega

/-- Of the sweeps only the one for deadlines touches a row that waits for a retry. -/
theorem JobLedger.find?_sweep_of_retry (hfind : l.find? j = some r) (hretry : r.status = .retry)
    (hcancel : r.cancelRequestedAt = none) :
    (l.sweep now).find? j = some (if r.totalDeadlineAt.any (· ≤ now) then
      (JobAssignment.sweepDeadline now).apply r else r) := by
  have hwaiting : r.waiting = true := (DurableJob.waiting_iff r).2 (.inr hretry)
  have hfirst : cancelPending r = false := by simp [cancelPending, hcancel]
  have hthird : leaseExpired now r = false := by simp [leaseExpired, hretry]
  have hpassed : deadlinePassed now r = r.totalDeadlineAt.any (· ≤ now) := by
    rw [deadlinePassed, hwaiting, Bool.true_and]
  have hlast : leaseExpired now ((JobAssignment.sweepDeadline now).apply r) = false := by
    simp [leaseExpired, JobAssignment.sweepDeadline]
  rw [sweep, find?_update, find?_update, find?_update, hfind]
  simp only [Option.map_some, hfirst, Bool.false_eq_true, if_false, hpassed]
  split
  · rw [hlast, if_neg Bool.false_ne_true]
  · rw [hthird, if_neg Bool.false_ne_true]

theorem deadline_iff : r.totalDeadlineAt.any (· ≤ now) = false ↔
    ∀ d ∈ r.totalDeadlineAt, now < d := by
  cases r.totalDeadlineAt <;> simp

end Queue

section Reached

variable {r r' : DurableJob}

/-- What a row keeps besides `JobValid`: it can be read back under its type, and no request to
cancel it is open while it waits. -/
structure Retriable (r : DurableJob) : Prop where
  jobType : encodable r.jobType = true
  unrequested : r.waiting = true → r.cancelRequestedAt = none

theorem RowStep.unrequested (h : RowStep r r')
    (hr : r.waiting = true → r.cancelRequestedAt = none) :
    r'.waiting = true → r'.cancelRequestedAt = none := by
  have hreleased : r.releasedStatus = .pending ∨ r.releasedStatus = .retry →
      r.cancelRequestedAt = none := by
    intro hwaits
    rcases r.releasedStatus_cases with ⟨hs, -⟩ | ⟨hs, -⟩ | ⟨-, hnone, -⟩
    · simp [hs] at hwaits
    · simp [hs] at hwaits
    · exact Option.not_isSome_iff_eq_none.1 (by simp [hnone])
  cases h with
  | sweptExpired now hexpired => exact fun hw => hreleased ((DurableJob.waiting_iff _).1 hw)
  | retried availableAt errorCode now howner =>
    exact fun hw => hreleased ((DurableJob.waiting_iff _).1 hw)
  | sweptCancelled | sweptDeadline | completed | deadLettered | cancelAcknowledged =>
    intro hw
    cases hw
  | renewed | progressed | checkpointed | providerSet | released => exact hr
  | cancelRequested now hopen =>
    intro hw
    have hstatus : ((JobAssignment.requestCancel now).apply r).status =
        if r.waiting then .cancelled else r.status := rfl
    rw [DurableJob.waiting_iff, hstatus] at hw
    split at hw
    · rcases hw with hw | hw <;> cases hw
    · next hwaiting => exact absurd ((DurableJob.waiting_iff r).2 hw) hwaiting

theorem RowStep.retriable (h : RowStep r r') (hr : Retriable r) : Retriable r' where
  jobType := by
    rw [h.keys.2.1]
    exact hr.jobType
  unrequested := h.unrequested hr.unrequested

theorem RowSteps.retriable (h : ReflTransGen RowStep r r') (hr : Retriable r) :
    Retriable r' := by
  induction h with
  | refl => exact hr
  | tail _ hstep ih => exact hstep.retriable ih

variable [PythonText] {j : Str} {now : Instant} {a : EnqueueArgs} {c : Call} {l : JobLedger}

theorem EnqueueArgs.retriable_row (h : a.row now = .ok r) : Retriable r := by
  simp only [EnqueueArgs.row, bind_eq_ok, Except.ok.injEq] at h
  obtain ⟨_, _, payloadJson, _, _, _, _, hbound, rfl⟩ := h
  exact ⟨bindParameters_encodable hbound (by simp), fun _ => rfl⟩

theorem retriable_step (hl : ∀ j r, l.find? j = some r → Retriable r) (c : Call) (j : Str)
    (r' : DurableJob) (h : (step l c).find? j = some r') : Retriable r' := by
  cases row_cases h with
  | created hcall hnew hrow => exact EnqueueArgs.retriable_row hrow
  | claimed hcall lease now hold hsweep hready hattempt hmem =>
    exact ⟨(RowSteps.retriable hsweep (hl j _ hold)).jobType, nofun⟩
  | deferred availableAt state now hold hrun hcancel hdefers =>
    exact ⟨(hl j _ hold).jobType, fun _ => hcancel⟩
  | requeued availableAt now hold hdone hrequeues => exact ⟨(hl j _ hold).jobType, fun _ => rfl⟩
  | plain hold hsteps hclaims hdefers hrequeues => exact RowSteps.retriable hsteps (hl j _ hold)

theorem reachable_retriable {cs : List Call} (h : (ledgerAfter cs).find? j = some r) :
    Retriable r := by
  have hstep : ∀ (l : JobLedger) (c : Call), (∀ j r, l.find? j = some r → Retriable r) →
      ∀ j r, (step l c).find? j = some r → Retriable r := fun _ c hl => retriable_step hl c
  have hempty : ∀ j r, JobLedger.empty.find? j = some r → Retriable r := by
    intro j r hfind
    cases hfind
  exact run_invariant hstep hempty cs j r h

end Reached

section Claim

variable [PythonText] {l l' : JobLedger} {j jobType workerId : Str} {r : DurableJob}
  {limit : Int} {lease : Seconds} {now : Instant}

/-- The call returns job `j` running, under a new lease of `workerId` with a token of its own. -/
def Reclaims (l : JobLedger) (r : DurableJob) (workerId : Str) (limit : Int) (lease : Seconds)
    (now : Instant) : Prop :=
  ∃ rows l' m leaseEnd, claimJobs r.jobType workerId limit lease now l = .ok (rows, l') ∧
    now.add (lease.atLeast 1000000) = .ok leaseEnd ∧ m ∈ rows ∧ m.jobId = r.jobId ∧
    m.status = .running ∧ m.leaseOwner = some workerId ∧
    m.leaseExpiresAt = some (isoUtc leaseEnd) ∧
    m.leaseFencingToken = r.leaseFencingToken + 1

/-- The total deadline of the job lies ahead, fewer than a hundred due jobs are claimed before
it, and the call accepts its arguments. -/
structure Reclaimable (l : JobLedger) (r : DurableJob) (workerId : Str) (lease : Seconds)
    (now : Instant) : Prop where
  deadline : ∀ d ∈ r.totalDeadlineAt, isoUtc now < d
  ahead : (l.sweep (isoUtc now)).ahead r.jobType (isoUtc now) r.jobId < 100
  worker : encodable workerId = true
  lease : ∃ leaseEnd, now.add (lease.atLeast 1000000) = .ok leaseEnd

omit [PythonText] in
theorem due_of_retry (hvalid : JobValid r) (hready : Retriable r) (hretry : r.status = .retry)
    (havailable : r.availableAt ≤ isoUtc now) (hdeadline : ∀ d ∈ r.totalDeadlineAt, isoUtc now < d) :
    due r.jobType (isoUtc now) r = true := by
  have hwaiting : r.waiting = true := (DurableJob.waiting_iff r).2 (.inr hretry)
  have hleft := hvalid.attemptLeft (.inr hretry)
  have hnone := hready.unrequested hwaiting
  have hall : r.totalDeadlineAt.all (isoUtc now < ·) = true := by
    rw [Option.all_eq_true]
    intro d hd
    exact decide_eq_true (hdeadline d hd)
  simp [due, hwaiting, havailable, hleft, hnone, hall]

omit [PythonText] in
/-- A waiting row that the sweeps leave is claimed if it is selected and the call accepts its
arguments. -/
theorem reclaims_of_reclaimable (hfind : l.find? r.jobId = some r) (hvalid : JobValid r)
    (hready : Retriable r) (hretry : r.status = .retry) (havailable : r.availableAt ≤ isoUtc now)
    (hlimit : (((l.sweep (isoUtc now)).queue r.jobType (isoUtc now)).length : Int) ≤ limit)
    (h : Reclaimable l r workerId lease now) : Reclaims l r workerId limit lease now := by
  have hwaiting : r.waiting = true := (DurableJob.waiting_iff r).2 (.inr hretry)
  have hnone := hready.unrequested hwaiting
  obtain ⟨leaseEnd, hlease⟩ := h.lease
  have hswept : (l.sweep (isoUtc now)).find? r.jobId = some r := by
    rw [JobLedger.find?_sweep_of_retry hfind hretry hnone, deadline_iff.2 h.deadline,
      if_neg Bool.false_ne_true]
  have hselected : r.jobId ∈ (l.sweep (isoUtc now)).selectDue r.jobType (isoUtc now)
      (max 1 (min limit 100)).toNat := by
    rw [JobLedger.mem_selectDue_iff hlimit, JobLedger.mem_queue hswept]
    exact ⟨due_of_retry hvalid hready hretry havailable h.deadline, h.ahead⟩
  have htype : bindParameters [.text r.jobType] = .ok () := by
    refine bindParameters_ok fun p hp => ?_
    rw [List.mem_singleton] at hp
    rw [hp]
    exact error?_text hready.jobType
  have hworker : ∀ ps, ps = [] ∨ ps = [.text workerId] → bindParameters ps = .ok () := by
    rintro ps (rfl | rfl)
    · rfl
    · refine bindParameters_ok fun p hp => ?_
      rw [List.mem_singleton] at hp
      rw [hp]
      exact error?_text h.worker
  have hclaimed : (JobAssignment.claim workerId (isoUtc leaseEnd) (isoUtc now)).apply r ∈
      (JobLedger.claimRows workerId (isoUtc leaseEnd) (isoUtc now)
        ((l.sweep (isoUtc now)).selectDue r.jobType (isoUtc now) (max 1 (min limit 100)).toNat)
        (l.sweep (isoUtc now))).1 := by
    rw [mem_claimRows]
    refine ⟨r, hswept, hselected, ?_, rfl⟩
    rw [claimable, hwaiting, hnone]
    rfl
  have hclaim : claimJobs r.jobType workerId limit lease now l =
      .ok (JobLedger.claimRows workerId (isoUtc leaseEnd) (isoUtc now)
        ((l.sweep (isoUtc now)).selectDue r.jobType (isoUtc now) (max 1 (min limit 100)).toNat)
        (l.sweep (isoUtc now))) := by
    simp only [claimJobs, hlease, htype, bind, Except.bind]
    rw [hworker _ (by split <;> simp)]
  exact ⟨_, _, _, leaseEnd, hclaim, hlease, hclaimed, rfl, rfl, rfl, rfl, rfl⟩

omit [PythonText] in
theorem reclaimable_of_reclaims (hfind : l.find? r.jobId = some r) (hready : Retriable r)
    (hretry : r.status = .retry)
    (hlimit : (((l.sweep (isoUtc now)).queue r.jobType (isoUtc now)).length : Int) ≤ limit)
    (h : Reclaims l r workerId limit lease now) : Reclaimable l r workerId lease now := by
  obtain ⟨rows, l', m, leaseEnd, hclaim, hlease, hmem, hkey, -⟩ := h
  have hnone := hready.unrequested ((DurableJob.waiting_iff r).2 (.inr hretry))
  simp only [claimJobs, bind_eq_ok, Except.ok.injEq] at hclaim
  obtain ⟨leaseEnd', _, _, _, _, hbound, hpair⟩ := hclaim
  rw [show rows = _ from (congrArg Prod.fst hpair).symm, mem_claimRows, hkey] at hmem
  obtain ⟨m', hm', hselected, -⟩ := hmem
  have hmember := (JobLedger.mem_selectDue_iff hlimit).1 hselected
  have hdue := (JobLedger.mem_queue hm').1 hmember.1
  refine ⟨?_, hmember.2, ?_, leaseEnd, hlease⟩
  · have hswept := hm'.symm.trans (JobLedger.find?_sweep_of_retry hfind hretry hnone)
    rw [Option.some.injEq] at hswept
    rw [← deadline_iff, ← Bool.not_eq_true]
    intro hpassed
    rw [if_pos hpassed] at hswept
    rw [hswept] at hdue
    simp [due, DurableJob.waiting, JobAssignment.sweepDeadline] at hdue
  · refine bindParameters_encodable hbound ?_
    rw [if_neg]
    · exact List.mem_singleton_self _
    · rw [List.isEmpty_iff]
      exact List.ne_nil_of_mem hselected

end Claim

/-- A job that `requeue_job` leaves waiting for a retry is claimed once it is available, by a
call whose limit covers the jobs that are due, exactly if its total deadline lies ahead, fewer
than a hundred due jobs come first, and the call accepts its arguments. -/
theorem requeued_job_reclaimed_iff [PythonText] (cs : List Call) (jobId workerId : Str)
    (delay lease : Seconds) (now at_ : Instant) (limit : Int) (r : DurableJob) (l' : JobLedger)
    (hrequeue : requeueJob jobId delay now (ledgerAfter cs) = .ok (some r, l'))
    (hretry : r.status = .retry) (havailable : r.availableAt ≤ isoUtc at_)
    (hlimit : (((l'.sweep (isoUtc at_)).queue r.jobType (isoUtc at_)).length : Int) ≤ limit) :
    Reclaims l' r workerId limit lease at_ ↔ Reclaimable l' r workerId lease at_ := by
  obtain ⟨availableAt, -, hread⟩ := requeueJob_spec hrequeue
  have hfind : l'.find? r.jobId = some r := by
    rw [JobLedger.jobId_of_find? hread.symm]
    exact hread.symm
  have hrun : (Call.requeueJob jobId delay now).run (ledgerAfter cs) = .ok (.row (some r), l') := by
    rw [Call.run, Transaction.mapReply, hrequeue]
    rfl
  have hreached : l' = ledgerAfter (cs ++ [.requeueJob jobId delay now]) := by
    rw [ledgerAfter, run_concat]
    exact (step_of_run hrun).symm
  have hvalid : JobValid r := reachable_valid (hreached ▸ hfind)
  have hready : Retriable r := reachable_retriable (hreached ▸ hfind)
  exact ⟨reclaimable_of_reclaims hfind hready hretry hlimit,
    reclaims_of_reclaimable hfind hvalid hready hretry havailable hlimit⟩

/-- The row and the ledger of a call that returns a row. -/
def returned? : Except PyError (Option DurableJob × JobLedger) → Option (DurableJob × JobLedger)
  | .ok (some r, l') => some (r, l')
  | .ok (none, _) | .error _ => none

theorem returned?_eq_some {x : Except PyError (Option DurableJob × JobLedger)} {r : DurableJob}
    {l' : JobLedger} (h : returned? x = some (r, l')) : x = .ok (some r, l') := by
  rcases x with e | ⟨_ | r₀, l₀⟩
  · cases h
  · cases h
  · cases h
    rfl

/-- What `requeue_job` returns at the end of a run, with the ledger that it leaves. -/
def requeuedAfter (cs : List Call) (now : Instant) : Option (DurableJob × JobLedger) :=
  returned? (requeueJob "j1" (.micros 0) now (@ledgerAfter asciiText cs))

theorem requeued_job_reclaimed_iff_cancelled : ∃ p ∈ requeuedAfter
      [.enqueueJob sampleJob ⟨0, by decide⟩, .requestCancel "j1" ⟨1000000, by decide⟩]
      ⟨2000000, by decide⟩,
    Reclaims p.2 p.1 "w1" 10 (.micros 30000000) ⟨3000000, by decide⟩ := by
  have hrun : ∃ p ∈ requeuedAfter
      [.enqueueJob sampleJob ⟨0, by decide⟩, .requestCancel "j1" ⟨1000000, by decide⟩]
      ⟨2000000, by decide⟩,
      p.1.status = .retry ∧ p.1.availableAt ≤ isoUtc ⟨3000000, by decide⟩ ∧
      (((p.2.sweep (isoUtc ⟨3000000, by decide⟩)).queue p.1.jobType
        (isoUtc ⟨3000000, by decide⟩)).length : Int) ≤ 10 ∧
      p.1.totalDeadlineAt = none ∧
      (p.2.sweep (isoUtc ⟨3000000, by decide⟩)).ahead p.1.jobType
        (isoUtc ⟨3000000, by decide⟩) p.1.jobId < 100 := by decide +kernel
  obtain ⟨⟨r, l'⟩, hp, hretry, havailable, hlimit, hdeadline, hahead⟩ := hrun
  refine ⟨(r, l'), hp, ?_⟩
  have hnever : ∀ d ∈ r.totalDeadlineAt, isoUtc ⟨3000000, by decide⟩ < d := by
    rw [show r.totalDeadlineAt = none from hdeadline]
    nofun
  have hlease : Instant.add ⟨3000000, by decide⟩ ((Seconds.micros 30000000).atLeast 1000000) =
      .ok ⟨33000000, by decide⟩ := by decide +kernel
  exact (@requeued_job_reclaimed_iff asciiText _ _ "w1" _ _ _ _ 10 r l' (returned?_eq_some hp)
    hretry havailable hlimit).2 ⟨hnever, hahead, by decide, _, hlease⟩

/-- A dead-lettered job past its total deadline keeps the deadline when it is requeued: the next
claim dead-letters it again. -/
theorem requeue_keeps_deadline :
    ¬ ∀ (cs : List Call) (jobId workerId : Str) (delay lease : Seconds) (now at_ : Instant)
      (limit : Int) (r : DurableJob) (l' : JobLedger),
      requeueJob jobId delay now (@ledgerAfter asciiText cs) = .ok (some r, l') →
      r.status = .retry → r.availableAt ≤ isoUtc at_ →
      (((l'.sweep (isoUtc at_)).queue r.jobType (isoUtc at_)).length : Int) ≤ limit →
      Reclaims l' r workerId limit lease at_ := by
  intro h
  have hrun : ∃ p ∈ requeuedAfter
      [.enqueueJob { sampleJob with totalDeadlineAt := some "0001-01-01T00:00:02+00:00" }
          ⟨0, by decide⟩,
        .claimJobs "task.run" "w1" 10 (.micros 30000000) ⟨3000000, by decide⟩]
      ⟨4000000, by decide⟩,
      p.1.status = .retry ∧ p.1.availableAt ≤ isoUtc ⟨5000000, by decide⟩ ∧
      (((p.2.sweep (isoUtc ⟨5000000, by decide⟩)).queue p.1.jobType
        (isoUtc ⟨5000000, by decide⟩)).length : Int) ≤ 10 ∧
      (claimJobs p.1.jobType "w1" 10 (.micros 30000000) ⟨5000000, by decide⟩ p.2).toOption.all
        (·.1.isEmpty) = true := by decide +kernel
  obtain ⟨⟨r, l'⟩, hp, hretry, havailable, hlimit, hempty⟩ := hrun
  obtain ⟨rows, l'', m, leaseEnd, hclaim, -, hmem, -⟩ := h _ "j1" "w1" (.micros 0)
    (.micros 30000000) _ ⟨5000000, by decide⟩ 10 r l' (returned?_eq_some hp) hretry
    havailable hlimit
  rw [hclaim] at hempty
  rw [show rows = [] from List.isEmpty_iff.1 hempty] at hmem
  cases hmem

end HardyAI.Jobs
