import HardyAI.Jobs.LedgerInvariant

/-! Fencing: the tokens of successive claims of a job increase, and a fenced call
takes effect only under the token of the latest claim, while the job has run
without interruption since. -/

open Foundation Foundation.Json Foundation.Trace Relation

namespace HardyAI.Jobs

section Rows

variable {r r' : DurableJob}

theorem RowStep.token_eq (h : RowStep r r') : r'.leaseFencingToken = r.leaseFencingToken := by
  cases h <;> rfl

theorem RowSteps.token_eq (h : ReflTransGen RowStep r r') :
    r'.leaseFencingToken = r.leaseFencingToken := by
  induction h with
  | refl => rfl
  | tail _ hstep ih => exact hstep.token_eq.trans ih

theorem DurableJob.releasedStatus_ne_running (r : DurableJob) : r.releasedStatus ≠ .running := by
  rcases r.releasedStatus_cases with ⟨h, -⟩ | ⟨h, -⟩ | ⟨h, -⟩ <;> simp [h]

/-- No plain step starts a job. -/
theorem RowStep.running_of_running (h : RowStep r r') (hrun : r'.status = .running) :
    r.status = .running := by
  cases h with
  | sweptExpired now h => exact absurd hrun r.releasedStatus_ne_running
  | retried availableAt errorCode now howner => exact absurd hrun r.releasedStatus_ne_running
  | cancelRequested now hfin =>
    by_cases hwait : r.waiting = true <;> simp_all [JobAssignment.requestCancel]
  | sweptCancelled | sweptDeadline | completed | deadLettered | cancelAcknowledged =>
    exact JobStatus.noConfusion hrun
  | renewed | progressed | checkpointed | providerSet | released => exact hrun

theorem RowSteps.running_of_running (h : ReflTransGen RowStep r r')
    (hrun : r'.status = .running) : r.status = .running := by
  induction h with
  | refl => exact hrun
  | tail _ hstep ih => exact ih (hstep.running_of_running hrun)

end Rows

section Keeps

/-- No row of `l` is missing from `l'`. -/
def JobLedger.Keeps (l l' : JobLedger) : Prop :=
  ∀ j, (l.find? j).isSome = true → (l'.find? j).isSome = true

variable {l l' : JobLedger} {f : JobAssignment} {g : DurableJob → Bool}

theorem JobLedger.Keeps.refl (l : JobLedger) : l.Keeps l := fun _ h => h

theorem JobLedger.Keeps.trans {l'' : JobLedger} (h : l.Keeps l') (h' : l'.Keeps l'') :
    l.Keeps l'' := fun j hj => h' j (h j hj)

theorem JobLedger.keeps_update (l : JobLedger) : l.Keeps (l.update g f) := fun j hj => by
  simpa [find?_update] using hj

theorem JobLedger.keeps_updateJob (l : JobLedger) (jobId : Str) :
    l.Keeps (l.updateJob jobId g f).2 := keeps_update l

theorem JobLedger.keeps_sweep (l : JobLedger) (now : Str) : l.Keeps (l.sweep now) :=
  ((keeps_update l).trans (keeps_update _)).trans (keeps_update _)

theorem JobLedger.keeps_claimRows (l : JobLedger) (workerId lease now : Str) (ids : List Str) :
    l.Keeps (JobLedger.claimRows workerId lease now ids l).2 := fun j hj => by
  simpa [claimRows_find?] using hj

end Keeps

theorem leasedBy_of_activeLease {workerId : Str} {token : Int} {r : DurableJob}
    (h : activeLease workerId token r = true) : r.leasedBy workerId (some token) = true :=
  (Bool.and_eq_true_iff.1 (Bool.and_eq_true_iff.1 h).1).2

section Fenced

variable [PythonText] {c : Call} {l l' : JobLedger} {j jobId workerId : Str} {r : DurableJob}

/-- The job, the worker and the token that a call passes to the lease guard. -/
def Call.lease? : Call → Option (Str × Str × Option Int)
  | .completeJob jobId workerId token _ => some (jobId, workerId, token)
  | .retryJob jobId workerId _ _ token _ => some (jobId, workerId, token)
  | .deferJob jobId workerId token .. => some (jobId, workerId, some token)
  | .deadLetterJob jobId workerId token .. => some (jobId, workerId, some token)
  | .renewLease jobId workerId token .. => some (jobId, workerId, some token)
  | .updateProgress jobId workerId token .. => some (jobId, workerId, some token)
  | .checkpointPayload jobId workerId token .. => some (jobId, workerId, some token)
  | .setProviderOperation jobId workerId token .. => some (jobId, workerId, some token)
  | .acknowledgeCancel jobId workerId token .. => some (jobId, workerId, some token)
  | .enqueueJob .. | .claimJobs .. | .releaseJobs .. | .requestCancel .. | .requeueJob .. => none

/-- Every leased call is one update of its row, guarded by the lease it names. -/
theorem Call.lease_spec {token : Option Int} {reply : Reply}
    (hlease : c.lease? = some (jobId, workerId, token)) (hrun : c.run l = .ok (reply, l')) :
    ∃ b g f, reply = .flag b ∧ (b, l') = l.updateJob jobId g f ∧
      ∀ r, g r = true → r.leasedBy workerId token = true := by
  cases c with
  | enqueueJob | claimJobs | releaseJobs | requestCancel | requeueJob =>
    simp [Call.lease?] at hlease
  | completeJob =>
    simp only [Call.lease?, Option.some.injEq, Prod.mk.injEq] at hlease
    obtain ⟨rfl, rfl, rfl⟩ := hlease
    obtain ⟨b, hop, rfl⟩ := mapReply_eq_ok hrun
    refine ⟨b, _, _, rfl, completeJob_spec hop, fun r hg => ?_⟩
    exact (Bool.and_eq_true_iff.1 hg).2
  | retryJob jobId workerId errorCode delay token now =>
    simp only [Call.lease?, Option.some.injEq, Prod.mk.injEq] at hlease
    obtain ⟨rfl, rfl, rfl⟩ := hlease
    obtain ⟨b, hop, rfl⟩ := mapReply_eq_ok hrun
    rcases retryJob_spec hop with ⟨rfl, rfl, hnone⟩ | ⟨row, availableAt, -, -, hpair⟩
    · have hfalse : (l'.updateJob jobId (·.leasedBy workerId token) (.requeue [] [])).1 = false := by
        rw [← Bool.not_eq_true, JobLedger.updateJob_fst]
        rintro ⟨r, hr, hg⟩
        simp [hnone r hr] at hg
      refine ⟨false, _, .requeue [] [], rfl, ?_, fun r hg => hg⟩
      exact Prod.ext hfalse.symm (JobLedger.updateJob_snd_of_false hfalse).symm
    · exact ⟨b, _, _, rfl, hpair, fun r hg => hg⟩
  | deferJob =>
    simp only [Call.lease?, Option.some.injEq, Prod.mk.injEq] at hlease
    obtain ⟨rfl, rfl, rfl⟩ := hlease
    obtain ⟨b, hop, rfl⟩ := mapReply_eq_ok hrun
    obtain ⟨availableAt, hpair⟩ := deferJob_spec hop
    exact ⟨b, _, _, rfl, hpair, fun r hg => leasedBy_of_activeLease hg⟩
  | deadLetterJob =>
    simp only [Call.lease?, Option.some.injEq, Prod.mk.injEq] at hlease
    obtain ⟨rfl, rfl, rfl⟩ := hlease
    obtain ⟨b, hop, rfl⟩ := mapReply_eq_ok hrun
    exact ⟨b, _, _, rfl, deadLetterJob_spec hop, fun r hg => (Bool.and_eq_true_iff.1 hg).2⟩
  | renewLease =>
    simp only [Call.lease?, Option.some.injEq, Prod.mk.injEq] at hlease
    obtain ⟨rfl, rfl, rfl⟩ := hlease
    obtain ⟨b, hop, rfl⟩ := mapReply_eq_ok hrun
    obtain ⟨leaseEnd, hpair⟩ := renewLease_spec hop
    exact ⟨b, _, _, rfl, hpair, fun r hg => leasedBy_of_activeLease hg⟩
  | updateProgress =>
    simp only [Call.lease?, Option.some.injEq, Prod.mk.injEq] at hlease
    obtain ⟨rfl, rfl, rfl⟩ := hlease
    obtain ⟨b, hop, rfl⟩ := mapReply_eq_ok hrun
    exact ⟨b, _, _, rfl, updateProgress_spec hop, fun r hg => leasedBy_of_activeLease hg⟩
  | checkpointPayload =>
    simp only [Call.lease?, Option.some.injEq, Prod.mk.injEq] at hlease
    obtain ⟨rfl, rfl, rfl⟩ := hlease
    obtain ⟨b, hop, rfl⟩ := mapReply_eq_ok hrun
    obtain ⟨encoded, hpair⟩ := checkpointPayload_spec hop
    exact ⟨b, _, _, rfl, hpair, fun r hg => leasedBy_of_activeLease hg⟩
  | setProviderOperation =>
    simp only [Call.lease?, Option.some.injEq, Prod.mk.injEq] at hlease
    obtain ⟨rfl, rfl, rfl⟩ := hlease
    obtain ⟨b, hop, rfl⟩ := mapReply_eq_ok hrun
    exact ⟨b, _, _, rfl, setProviderOperation_spec hop, fun r hg => leasedBy_of_activeLease hg⟩
  | acknowledgeCancel =>
    simp only [Call.lease?, Option.some.injEq, Prod.mk.injEq] at hlease
    obtain ⟨rfl, rfl, rfl⟩ := hlease
    obtain ⟨b, hop, rfl⟩ := mapReply_eq_ok hrun
    refine ⟨b, _, _, rfl, acknowledgeCancel_spec hop, fun r hg => ?_⟩
    exact (Bool.and_eq_true_iff.1 (Bool.and_eq_true_iff.1 hg).1).2

/-- No call deletes a row. -/
theorem keeps_step (l : JobLedger) (c : Call) : l.Keeps (step l c) := by
  cases hrun : c.run l with
  | error e =>
    rw [step, Transaction.commit_of_error hrun]
    exact .refl l
  | ok p =>
    obtain ⟨reply, l'⟩ := p
    rw [step_of_run hrun]
    cases hlease : c.lease? with
    | some lease =>
      obtain ⟨b, g, f, -, hpair, -⟩ := Call.lease_spec hlease hrun
      rw [show l' = _ from congrArg Prod.snd hpair]
      exact l.keeps_updateJob lease.1
    | none =>
      cases c with
      | enqueueJob a now =>
        obtain ⟨persisted, hop, -⟩ := mapReply_eq_ok hrun
        obtain ⟨row, -, hinsert⟩ := enqueueJob_spec hop
        intro j hj
        rcases insertOrIgnore_spec hinsert j with ⟨hfind, -⟩ | rfl
        · rw [hfind]
          split
          · rfl
          · exact hj
        · exact hj
      | claimJobs jobType workerId limit lease now =>
        obtain ⟨rows, hop, -⟩ := mapReply_eq_ok hrun
        obtain ⟨leaseEnd, bounded, hpair⟩ := claimJobs_spec hop
        rw [show l' = _ from congrArg Prod.snd hpair]
        exact (l.keeps_sweep _).trans (JobLedger.keeps_claimRows _ _ _ _ _)
      | releaseJobs jobType aggregateId state now =>
        obtain ⟨n, hop, -⟩ := mapReply_eq_ok hrun
        obtain ⟨g, normalizedState, -, rfl⟩ := releaseJobs_spec hop
        exact l.keeps_update
      | requestCancel jobId now =>
        obtain ⟨row, hop, -⟩ := mapReply_eq_ok hrun
        rcases requestCancel_spec hop with ⟨rfl, -⟩ | ⟨r₀, -, -, rfl⟩
        · exact .refl _
        · exact l.keeps_updateJob jobId
      | requeueJob jobId delay now =>
        obtain ⟨row, hop, -⟩ := mapReply_eq_ok hrun
        obtain ⟨availableAt, rfl, -⟩ := requeueJob_spec hop
        exact l.keeps_updateJob jobId
      | _ => simp [Call.lease?] at hlease

/-- A refused or ineffective leased call leaves the whole ledger as it was. -/
theorem Call.step_of_not_succeeds {token : Option Int}
    (hlease : c.lease? = some (jobId, workerId, token)) (h : c.succeeds l = false) :
    step l c = l := by
  cases hrun : c.run l with
  | error e => exact Transaction.commit_of_error hrun
  | ok p =>
    obtain ⟨b, g, f, hreply, hpair, -⟩ := Call.lease_spec hlease hrun
    rw [Call.succeeds_of_run hrun, hreply] at h
    obtain rfl : b = false := h
    rw [step_of_run hrun, show p.2 = (l.updateJob jobId g f).2 from congrArg Prod.snd hpair]
    exact JobLedger.updateJob_snd_of_false (congrArg Prod.fst hpair).symm

/-- A leased call that returns `True` has found the row under its lease. -/
theorem Call.leased_of_succeeds {token : Option Int}
    (hlease : c.lease? = some (jobId, workerId, token)) (h : c.succeeds l = true) :
    ∃ r, l.find? jobId = some r ∧ r.leasedBy workerId token = true := by
  cases hrun : c.run l with
  | error e => simp [Call.succeeds, Transaction.reply, hrun, Except.map] at h
  | ok p =>
    obtain ⟨b, g, f, hreply, hpair, hguard⟩ := Call.lease_spec hlease hrun
    rw [Call.succeeds_of_run hrun, hreply] at h
    obtain rfl : b = true := h
    obtain ⟨r, hr, hg⟩ := JobLedger.updateJob_fst.1 (congrArg Prod.fst hpair).symm
    exact ⟨r, hr, hguard r hg⟩

/-- The reply of a leased call is a flag or an error. -/
theorem Call.reply_of_lease {token : Option Int}
    (hlease : c.lease? = some (jobId, workerId, token)) :
    c.run.reply l = .ok (.flag (c.succeeds l)) ∨ ∃ e, c.run.reply l = .error e := by
  cases hrun : c.run l with
  | error e => exact .inr ⟨e, by simp [Transaction.reply, hrun, Except.map]⟩
  | ok p =>
    obtain ⟨b, g, f, hreply, -, -⟩ := Call.lease_spec hlease hrun
    refine .inl ?_
    rw [Call.succeeds_of_run hrun, hreply]
    simp [Transaction.reply, hrun, Except.map, hreply, Reply.isTrue]

omit [PythonText] in
theorem mapReply_ok {α : Type} {t : Transaction JobLedger α} {f : α → Reply}
    (h : ∃ p, t l = .ok p) : ∃ p, t.mapReply f l = .ok p := by
  obtain ⟨p, hp⟩ := h
  exact ⟨(f p.1, p.2), by simp [Transaction.mapReply, hp, Except.map]⟩

/-- A leased call that returns `True` on some ledger raises on none: what it raises for are its
own arguments. -/
theorem Call.run_ok_of_succeeds {token : Option Int}
    (hlease : c.lease? = some (jobId, workerId, token)) (h : c.succeeds l' = true)
    (l : JobLedger) : ∃ p, c.run l = .ok p := by
  cases hrun : c.run l' with
  | error e => simp [Call.succeeds, Transaction.reply, hrun, Except.map] at h
  | ok p =>
    obtain ⟨reply, l₁⟩ := p
    rw [Call.succeeds_of_run hrun] at h
    cases c with
    | enqueueJob | claimJobs | releaseJobs | requestCancel | requeueJob =>
      simp [Call.lease?] at hlease
    | retryJob jobId workerId errorCode delay token now =>
      obtain ⟨b, hop, rfl⟩ := mapReply_eq_ok hrun
      obtain ⟨_, hbind, hop⟩ := bind_eq_ok.1 hop
      refine mapReply_ok ?_
      split at hop
      · rw [Except.ok.injEq, Prod.mk.injEq] at hop
        rw [← hop.1] at h
        exact Bool.noConfusion h
      · obtain ⟨availableAt, hadd, hop⟩ := bind_eq_ok.1 hop
        obtain ⟨_, hcode, -⟩ := bind_eq_ok.1 hop
        unfold Jobs.retryJob
        simp only [hbind, bind, Except.bind]
        split
        · exact ⟨_, rfl⟩
        · exact ⟨_, by simp [hadd, hcode]; rfl⟩
    | deferJob | renewLease =>
      obtain ⟨b, hop, -⟩ := mapReply_eq_ok hrun
      obtain ⟨_, hadd, hop⟩ := bind_eq_ok.1 hop
      obtain ⟨_, hbind, -⟩ := bind_eq_ok.1 hop
      exact mapReply_ok ⟨_, bind_eq_ok.2 ⟨_, hadd, bind_eq_ok.2 ⟨_, hbind, rfl⟩⟩⟩
    | updateProgress | setProviderOperation =>
      obtain ⟨b, hop, -⟩ := mapReply_eq_ok hrun
      obtain ⟨_, hvalid, hop⟩ := bind_eq_ok.1 hop
      obtain ⟨_, hbind, -⟩ := bind_eq_ok.1 hop
      exact mapReply_ok ⟨_, bind_eq_ok.2 ⟨_, hvalid, bind_eq_ok.2 ⟨_, hbind, rfl⟩⟩⟩
    | checkpointPayload =>
      obtain ⟨b, hop, -⟩ := mapReply_eq_ok hrun
      obtain ⟨_, hdump, hop⟩ := bind_eq_ok.1 hop
      obtain ⟨_, hsize, hop⟩ := bind_eq_ok.1 hop
      obtain ⟨_, hbind, -⟩ := bind_eq_ok.1 hop
      exact mapReply_ok
        ⟨_, bind_eq_ok.2 ⟨_, hdump, bind_eq_ok.2 ⟨_, hsize, bind_eq_ok.2 ⟨_, hbind, rfl⟩⟩⟩⟩
    | completeJob | deadLetterJob | acknowledgeCancel =>
      obtain ⟨b, hop, -⟩ := mapReply_eq_ok hrun
      obtain ⟨_, hbind, -⟩ := bind_eq_ok.1 hop
      exact mapReply_ok ⟨_, bind_eq_ok.2 ⟨_, hbind, rfl⟩⟩

theorem claimed_row (h : r ∈ c.claimed l) :
    (step l c).find? r.jobId = some r ∧
      ∃ old, l.find? r.jobId = some old ∧ r.leaseFencingToken = old.leaseFencingToken + 1 := by
  cases c with
  | claimJobs jobType workerId limit lease now =>
    cases hrun : (Call.claimJobs jobType workerId limit lease now).run l with
    | error e => simp [Call.claimed, Transaction.reply, hrun, Except.map] at h
    | ok p =>
      obtain ⟨reply, l'⟩ := p
      obtain ⟨rows, hop, rfl⟩ := mapReply_eq_ok hrun
      obtain ⟨leaseEnd, bounded, hpair⟩ := claimJobs_spec hop
      rw [Call.claimed_of_run hrun, Reply.claimedRows, show rows = _ from congrArg Prod.fst hpair,
        mem_claimRows] at h
      obtain ⟨m, hm, hmem, hready, hset⟩ := h
      obtain ⟨old, hold, hsweep⟩ := JobLedger.sweep_row hm
      refine ⟨?_, old, hold, ?_⟩
      · rw [step_of_run hrun, show l' = _ from congrArg Prod.snd hpair, claimRows_find?, hm]
        simp [hmem, hready, ← hset]
      · rw [hset, ← RowSteps.token_eq hsweep]
        rfl
  | _ => simp [Call.claimed_eq_nil] at h

/-- The token of the job, or `-1` where there is no such row. -/
def JobLedger.token (l : JobLedger) (j : Str) : Int :=
  (l.find? j).elim (-1) DurableJob.leaseFencingToken

theorem RowCase.token_le {r' : DurableJob} (h : RowCase c l j r') :
    l.token j ≤ r'.leaseFencingToken := by
  cases h with
  | created hcall hnew hrow =>
    simp [JobLedger.token, hnew, (EnqueueArgs.row_valid hrow).2.2.1]
  | claimed hcall lease now hold hsweep =>
    have hsame := RowSteps.token_eq hsweep
    simp only [JobLedger.token, hold, Option.elim_some, JobAssignment.claim]
    omega
  | deferred _ _ _ hold => simp [JobLedger.token, hold, JobAssignment.defer]
  | requeued _ _ hold => simp [JobLedger.token, hold, JobAssignment.requeue]
  | plain hold hstep => simp [JobLedger.token, hold, RowSteps.token_eq hstep]

theorem token_le_step (l : JobLedger) (c : Call) : l.token j ≤ (step l c).token j := by
  cases hnew : (step l c).find? j with
  | some r' => simpa [JobLedger.token, hnew] using (row_cases hnew).token_le
  | none =>
    have hold : l.find? j = none := by
      by_contra hsome
      have := keeps_step l c j (Option.isSome_iff_ne_none.2 hsome)
      simp [hnew] at this
    simp [JobLedger.token, hnew, hold]

theorem token_le_run (l : JobLedger) (cs : List Call) : l.token j ≤ (run step l cs).token j :=
  run_monotone (fun _ => True) (fun _ _ _ => trivial) (fun l c _ => token_le_step l c) trivial cs

/-- Job `j` runs under token `t`. -/
def RunsUnder (j : Str) (t : Int) (l : JobLedger) : Prop :=
  ∃ r, l.find? j = some r ∧ r.status = .running ∧ r.leaseFencingToken = t

/-- Only a claim of the job makes it run under another token. -/
theorem runsUnder_step {t : Int} (h : RunsUnder j t (step l c)) :
    RunsUnder j t l ∨ c.claims l j = true := by
  obtain ⟨r', hr', hrun, htoken⟩ := h
  cases row_cases hr' with
  | created hcall hnew hrow => simp [(EnqueueArgs.row_valid hrow).2.2.2] at hrun
  | claimed hcall lease now hold hsweep hready hattempt hmem =>
    refine .inr (List.any_eq_true.2 ⟨_, hmem, ?_⟩)
    simpa using JobLedger.jobId_of_find? hr'
  | deferred => simp [JobAssignment.defer] at hrun
  | requeued => simp [JobAssignment.requeue] at hrun
  | plain hold hstep =>
    exact .inl ⟨_, hold, RowSteps.running_of_running hstep hrun,
      (RowSteps.token_eq hstep).symm.trans htoken⟩

/-- Token `t` is the one that the latest claim of the job has returned, and the job has been
running in every state since. -/
def HeldSinceClaim (cs : List Call) (jobId : Str) (t : Int) : Prop :=
  ∃ pre claim post, cs = pre ++ claim :: post ∧
    (∃ r ∈ claim.claimed (ledgerAfter pre), r.jobId = jobId ∧ r.leaseFencingToken = t) ∧
    (∀ mid c rest, post = mid ++ c :: rest →
      c.claims (ledgerAfter (pre ++ claim :: mid)) jobId = false) ∧
    ∀ mid rest, post = mid ++ rest →
      ∃ r, (ledgerAfter (pre ++ claim :: mid)).find? jobId = some r ∧ r.status = .running

theorem held_of_runsUnder {cs : List Call} {t : Int} (h : RunsUnder j t (ledgerAfter cs)) :
    HeldSinceClaim cs j t := by
  have hnot : ¬ RunsUnder j t JobLedger.empty := by
    rintro ⟨r, hr, -⟩
    simp at hr
  obtain ⟨pre, claim, post, hsplit, hborn, hlast, hsince⟩ :=
    run_origin (fun _ => True) (RunsUnder j t) (fun l c => c.claims l j = true)
      (fun _ _ _ => trivial) (fun _ _ _ => runsUnder_step) trivial hnot cs h
  refine ⟨pre, claim, post, hsplit, ?_, ?_, ?_⟩
  · obtain ⟨r, hmem, hkey⟩ := List.any_eq_true.1 hborn
    rw [decide_eq_true_eq] at hkey
    obtain ⟨r', hr', -, htoken⟩ := hsince [] post rfl
    rw [run_concat, ← hkey, (claimed_row hmem).1] at hr'
    exact ⟨r, hmem, hkey, by rw [Option.some.inj hr', htoken]⟩
  · intro mid c rest hpost
    exact Bool.eq_false_iff.2 (hlast mid c rest hpost)
  · intro mid rest hpost
    obtain ⟨r, hr, hrun, -⟩ := hsince mid rest hpost
    exact ⟨r, hr, hrun⟩

theorem Call.runsUnder_of_succeeds {cs : List Call} {t : Int}
    (hlease : c.lease? = some (jobId, workerId, some t))
    (h : c.succeeds (ledgerAfter cs) = true) : RunsUnder jobId t (ledgerAfter cs) := by
  obtain ⟨r, hr, hleased⟩ := Call.leased_of_succeeds hlease h
  obtain ⟨howner, htoken⟩ := DurableJob.leasedBy_iff.1 hleased
  exact ⟨r, hr, (reachable_valid hr).owner.1 (by simp [howner]), htoken t rfl⟩

/-- Every claim of a job returns a larger token than the claims before it. A fenced call returns
`True` only under the token of the latest claim of a job that has run ever since; otherwise the
ledger stays as it was, and the call returns `False` or raises for arguments that no ledger
accepts. -/
theorem lease_fencing (cs : List Call) :
    (∀ pre c₁ mid c₂ post, cs = pre ++ c₁ :: (mid ++ c₂ :: post) →
      ∀ r₁ ∈ c₁.claimed (ledgerAfter pre), ∀ r₂ ∈ c₂.claimed (ledgerAfter (pre ++ c₁ :: mid)),
        r₂.jobId = r₁.jobId → r₁.leaseFencingToken < r₂.leaseFencingToken) ∧
    (∀ c : Call, ((c.claimed (ledgerAfter cs)).map DurableJob.jobId).Nodup) ∧
    ∀ (c : Call) (jobId workerId : Str) (t : Int), c.lease? = some (jobId, workerId, some t) →
      (c.run.reply (ledgerAfter cs) = .ok (.flag true) → HeldSinceClaim cs jobId t) ∧
      (c.run.reply (ledgerAfter cs) ≠ .ok (.flag true) →
        step (ledgerAfter cs) c = ledgerAfter cs ∧
        (c.run.reply (ledgerAfter cs) = .ok (.flag false) ∨
          ∃ e, c.run.reply (ledgerAfter cs) = .error e ∧
            ∀ l, c.run.reply l ≠ .ok (.flag true))) := by
  have hsucceeds : ∀ (c : Call) l, c.run.reply l = .ok (.flag true) ↔ c.succeeds l = true := by
    intro c l
    unfold Call.succeeds
    split
    · next reply heq => cases reply <;> simp_all [Reply.isTrue]
    · next heq => simp [heq]
  refine ⟨?_, fun c => c.nodup_claimed _, fun c jobId workerId t hlease => ⟨fun h => ?_, fun h => ?_⟩⟩
  · intro pre c₁ mid c₂ post _ r₁ hr₁ r₂ hr₂ hjob
    obtain ⟨hfind₁, -⟩ := claimed_row hr₁
    obtain ⟨-, old, hold, htoken⟩ := claimed_row hr₂
    have hmono : (step (ledgerAfter pre) c₁).token r₁.jobId ≤
        (ledgerAfter (pre ++ c₁ :: mid)).token r₁.jobId := by
      rw [ledgerAfter, ledgerAfter, run_append, run_cons]
      exact token_le_run _ mid
    rw [hjob] at hold
    simp only [JobLedger.token, hfind₁, hold, Option.elim_some] at hmono
    omega
  · exact held_of_runsUnder (Call.runsUnder_of_succeeds hlease ((hsucceeds c _).1 h))
  · have hfalse : c.succeeds (ledgerAfter cs) = false := by
      rwa [Ne, hsucceeds, Bool.not_eq_true] at h
    refine ⟨Call.step_of_not_succeeds hlease hfalse, ?_⟩
    rcases Call.reply_of_lease (l := ledgerAfter cs) hlease with hreply | ⟨e, herr⟩
    · exact .inl (by rw [hreply, hfalse])
    · refine .inr ⟨e, herr, fun l htrue => ?_⟩
      obtain ⟨p, hp⟩ := Call.run_ok_of_succeeds hlease ((hsucceeds c l).1 htrue) (ledgerAfter cs)
      simp [Transaction.reply, hp, Except.map] at herr

end Fenced

theorem lease_fencing_deferredRun : @HeldSinceClaim asciiText deferredRun "j1" 2 :=
  ((@lease_fencing asciiText deferredRun).2.2
    (.completeJob "j1" "w2" (some 2) ⟨4000000, by decide⟩) "j1" "w2" 2 rfl).1
    (by decide +kernel)

/-- Where no lease is held, `update_progress` with a blank stage raises instead of returning
`False`. -/
theorem update_progress_blank_stage :
    ¬ ∀ (cs : List Call) (c : Call) (jobId workerId : Str) (t : Int),
      c.lease? = some (jobId, workerId, some t) →
      ¬ @HeldSinceClaim asciiText cs jobId t →
      (@Call.run asciiText c).reply (@ledgerAfter asciiText cs) = .ok (.flag false) := by
  intro h
  have hreply := h [] (.updateProgress "j1" "w1" 1 "" 0 none ⟨0, by decide⟩) "j1" "w1" 1 rfl
    (by rintro ⟨pre, claim, post, hsplit, -⟩; simp at hsplit)
  exact absurd hreply (by decide +kernel)

end HardyAI.Jobs
