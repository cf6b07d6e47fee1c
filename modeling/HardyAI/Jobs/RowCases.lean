import HardyAI.Jobs.Runs

/-! Every call changes the row of a job in one of the ways of `RowCase`. -/

open Foundation Foundation.Json Foundation.Trace Relation

namespace HardyAI.Jobs

variable {l l' : JobLedger} {j jobId workerId : Str} {token : Int}
  {b : Bool} {now : Instant} {r r' : DurableJob}

theorem JobLedger.updateJob_row {g : DurableJob → Bool} {f : JobAssignment}
    (h : (l.updateJob jobId g f).2.find? j = some r') :
    ∃ r, l.find? j = some r ∧
      (j = jobId ∧ g r = true ∧ r' = f.apply r ∨ ¬ (j = jobId ∧ g r = true) ∧ r' = r) := by
  rw [find?_updateJob] at h
  obtain ⟨r, hr, hset⟩ := Option.map_eq_some_iff.1 h
  refine ⟨r, hr, ?_⟩
  rw [jobId_of_find? hr] at hset
  split at hset
  · next hg => exact .inl ⟨hg.1, hg.2, hset.symm⟩
  · next hg => exact .inr ⟨hg, hset.symm⟩

theorem RowStep.keys (h : RowStep r r') :
    r'.jobId = r.jobId ∧ r'.jobType = r.jobType ∧ r'.idempotencyKey = r.idempotencyKey := by
  cases h <;> exact ⟨rfl, rfl, rfl⟩

theorem RowSteps.keys (h : ReflTransGen RowStep r r') :
    r'.jobId = r.jobId ∧ r'.jobType = r.jobType ∧ r'.idempotencyKey = r.idempotencyKey := by
  induction h with
  | refl => exact ⟨rfl, rfl, rfl⟩
  | tail _ hstep ih =>
    obtain ⟨hid, htype, hkey⟩ := hstep.keys
    exact ⟨hid.trans ih.1, htype.trans ih.2.1, hkey.trans ih.2.2⟩

theorem activeLease_iff {r : DurableJob} :
    activeLease workerId token r = true ↔ r.status = .running ∧
      r.leaseOwner = some workerId ∧ r.leaseFencingToken = token ∧ r.cancelRequestedAt = none := by
  simp [activeLease, DurableJob.leasedBy_iff, and_assoc]

section Specs

/-! One equation for each operation that ends in a single guarded update. -/

theorem completeJob_spec {t : Option Int}
    (h : completeJob jobId workerId t now l = .ok (b, l')) :
    (b, l') = l.updateJob jobId (fun r => r.status = .running && r.cancelRequestedAt.isNone &&
      r.leasedBy workerId t) (.complete (isoUtc now)) := by
  simp only [completeJob, bind_eq_ok, Except.ok.injEq] at h
  obtain ⟨_, _, h⟩ := h
  exact h.symm

theorem retryJob_spec {t : Option Int} {errorCode : Str} {delay : Seconds}
    (h : retryJob jobId workerId errorCode delay t now l = .ok (b, l')) :
    (b = false ∧ l' = l ∧ ∀ r, l.find? jobId = some r → r.leasedBy workerId t = false) ∨
    ∃ row availableAt, l.find? jobId = some row ∧ row.leasedBy workerId t = true ∧
      (b, l') = l.updateJob jobId (·.leasedBy workerId t)
        (.retryAs row availableAt (errorCode.take 120) (isoUtc now)) := by
  simp only [retryJob, bind_eq_ok] at h
  obtain ⟨_, _, h⟩ := h
  split at h
  · next hnone =>
    simp only [Except.ok.injEq, Prod.mk.injEq] at h
    refine .inl ⟨h.1.symm, h.2.symm, fun r hr => ?_⟩
    simpa [hr, Option.filter] using hnone
  · next row hrow =>
    obtain ⟨hfind, hleased⟩ := Option.filter_eq_some_iff.1 hrow
    simp only [bind_eq_ok, Except.ok.injEq] at h
    obtain ⟨availableAt, _, _, _, h⟩ := h
    exact .inr ⟨row, isoUtc availableAt, hfind, hleased, h.symm⟩

theorem deferJob_spec {delay : Seconds} {state : Str}
    (h : deferJob jobId workerId token delay state now l = .ok (b, l')) :
    ∃ availableAt, (b, l') = l.updateJob jobId (activeLease workerId token)
      (.defer availableAt ((orDefault state "pending").take 80) (isoUtc now)) := by
  simp only [deferJob, bind_eq_ok, Except.ok.injEq] at h
  obtain ⟨availableAt, _, _, _, h⟩ := h
  exact ⟨isoUtc availableAt, h.symm⟩

theorem deadLetterJob_spec {errorCode : Str}
    (h : deadLetterJob jobId workerId token errorCode now l = .ok (b, l')) :
    (b, l') = l.updateJob jobId
      (fun r => r.status = .running && r.leasedBy workerId (some token))
      (.deadLetter ((orDefault errorCode "job_rejected").take 120) (isoUtc now)) := by
  simp only [deadLetterJob, bind_eq_ok, Except.ok.injEq] at h
  obtain ⟨_, _, h⟩ := h
  exact h.symm

theorem renewLease_spec {lease : Seconds}
    (h : renewLease jobId workerId token lease now l = .ok (b, l')) :
    ∃ leaseEnd, (b, l') = l.updateJob jobId (activeLease workerId token)
      (.renew leaseEnd (isoUtc now)) := by
  simp only [renewLease, bind_eq_ok, Except.ok.injEq] at h
  obtain ⟨leaseEnd, _, _, _, h⟩ := h
  exact ⟨isoUtc leaseEnd, h.symm⟩

theorem acknowledgeCancel_spec
    (h : acknowledgeCancel jobId workerId token now l = .ok (b, l')) :
    (b, l') = l.updateJob jobId (fun r => r.status = .running &&
      r.leasedBy workerId (some token) && r.cancelRequestedAt.isSome)
      (.acknowledgeCancel (isoUtc now)) := by
  simp only [acknowledgeCancel, bind_eq_ok, Except.ok.injEq] at h
  obtain ⟨_, _, h⟩ := h
  exact h.symm

theorem requeueJob_spec {delay : Seconds} {row : Option DurableJob}
    (h : requeueJob jobId delay now l = .ok (row, l')) :
    ∃ availableAt, l' = (l.updateJob jobId requeueable
      (.requeue availableAt (isoUtc now))).2 ∧ row = l'.find? jobId := by
  simp only [requeueJob, bind_eq_ok, Except.ok.injEq, Prod.mk.injEq] at h
  obtain ⟨availableAt, _, _, _, hrow, hl⟩ := h
  exact ⟨isoUtc availableAt, hl.symm, by rw [← hl, hrow]⟩

theorem requestCancel_spec {row : Option DurableJob}
    (h : requestCancel jobId now l = .ok (row, l')) :
    (l' = l ∧ ∀ r, l.find? jobId = some r → r.finished = true) ∨
    ∃ r, l.find? jobId = some r ∧ r.finished = false ∧
      l' = (l.updateJob jobId (fun _ => true) (.requestCancel (isoUtc now))).2 := by
  simp only [requestCancel, bind_eq_ok] at h
  obtain ⟨_, _, h⟩ := h
  split at h
  · next hnone =>
    simp only [Except.ok.injEq, Prod.mk.injEq] at h
    exact .inl ⟨h.2.symm, by simp [hnone]⟩
  · next row' hrow =>
    split at h
    · next hfin =>
      simp only [Except.ok.injEq, Prod.mk.injEq] at h
      exact .inl ⟨h.2.symm, by simpa [hrow] using hfin⟩
    · next hfin =>
      simp only [Except.ok.injEq, Prod.mk.injEq] at h
      exact .inr ⟨row', hrow, by simpa using hfin, h.2.symm⟩

theorem insertOrIgnore_spec {row : DurableJob} (h : l.insertOrIgnore row = .ok l') (k : Str) :
    (l'.find? k = if row.jobId = k then some row else l.find? k) ∧ l.find? row.jobId = none ∨
      l' = l := by
  unfold JobLedger.insertOrIgnore at h
  split at h
  · split at h
    · simp at h
    · simp only [Except.ok.injEq] at h
      exact .inr h.symm
  · split at h
    · simp at h
    · next jobs hinsert =>
      simp only [Except.ok.injEq] at h
      subst h
      exact .inl ⟨Table.find?_insert? hinsert k, (Table.insert?_eq_some hinsert).1⟩

variable [PythonText]

theorem updateProgress_spec {stage : Str} {current : Int} {total : Option Int}
    (h : updateProgress jobId workerId token stage current total now l = .ok (b, l')) :
    (b, l') = l.updateJob jobId (activeLease workerId token)
      (.progress (PythonText.casefold (strip stage)) (max 0 current)
        (total.map (max (max 0 current))) (isoUtc now)) := by
  simp only [updateProgress, bind_eq_ok, Except.ok.injEq] at h
  obtain ⟨_, _, _, _, h⟩ := h
  exact h.symm

theorem checkpointPayload_spec {payload : List (Str × Json)}
    (h : checkpointPayload jobId workerId token payload now l = .ok (b, l')) :
    ∃ encoded, (b, l') = l.updateJob jobId (activeLease workerId token)
      (.checkpoint encoded (isoUtc now)) := by
  simp only [checkpointPayload, bind_eq_ok, Except.ok.injEq] at h
  obtain ⟨encoded, _, _, _, _, _, h⟩ := h
  exact ⟨encoded, h.symm⟩

theorem setProviderOperation_spec {operation state : Str}
    (h : setProviderOperation jobId workerId token operation state now l = .ok (b, l')) :
    (b, l') = l.updateJob jobId (activeLease workerId token)
      (.setProvider ((strip operation).take 240)
        ((PythonText.casefold (strip state)).take 80) (isoUtc now)) := by
  simp only [setProviderOperation, bind_eq_ok, Except.ok.injEq] at h
  obtain ⟨_, _, _, _, h⟩ := h
  exact h.symm

theorem releaseJobs_spec {jobType aggregateId state : Str} {n : Nat}
    (h : releaseJobs jobType aggregateId state now l = .ok (n, l')) :
    ∃ g normalizedState, (∀ r, g r = true → r.waiting = true ∧ r.cancelRequestedAt = none) ∧
      l' = l.update g (.release normalizedState (isoUtc now)) := by
  simp only [releaseJobs, bind_eq_ok, Except.ok.injEq, Prod.mk.injEq] at h
  obtain ⟨_, _, _, _, _, hl⟩ := h
  refine ⟨_, _, fun r hr => ?_, hl.symm⟩
  simp only [Bool.and_eq_true, Option.isNone_iff_eq_none] at hr
  exact ⟨hr.1.2, hr.2⟩

theorem enqueueJob_spec {a : EnqueueArgs} {persisted : DurableJob}
    (h : enqueueJob a now l = .ok (persisted, l')) :
    ∃ row, a.row now = .ok row ∧ l.insertOrIgnore row = .ok l' := by
  simp only [enqueueJob, bind_eq_ok] at h
  obtain ⟨row, hrow, l₁, hinsert, h⟩ := h
  split at h
  · simp at h
  · simp only [bind_eq_ok, Except.ok.injEq, Prod.mk.injEq] at h
    obtain ⟨_, _, _, hl⟩ := h
    exact ⟨row, hrow, hl ▸ hinsert⟩

theorem EnqueueArgs.row_jobId {a : EnqueueArgs} {row : DurableJob} (h : a.row now = .ok row) :
    row.jobId = a.jobId := by
  simp only [EnqueueArgs.row, bind_eq_ok, Except.ok.injEq] at h
  obtain ⟨_, _, _, _, _, _, _, _, rfl⟩ := h
  rfl

end Specs

section Claim

variable {lease current jobType : Str} {ids : List Str}

theorem JobLedger.update_row {g : DurableJob → Bool} {f : JobAssignment}
    (h : (l.update g f).find? j = some r') :
    ∃ r, l.find? j = some r ∧ (g r = true ∧ r' = f.apply r ∨ r' = r) := by
  rw [find?_update] at h
  obtain ⟨r, hr, hset⟩ := Option.map_eq_some_iff.1 h
  refine ⟨r, hr, ?_⟩
  split at hset
  · next hg => exact .inl ⟨hg, hset.symm⟩
  · exact .inr hset.symm

theorem JobLedger.sweep_row (h : (l.sweep current).find? j = some r') :
    ∃ r, l.find? j = some r ∧ ReflTransGen RowStep r r' := by
  obtain ⟨r₂, h₂, hcase₂⟩ := update_row h
  obtain ⟨r₁, h₁, hcase₁⟩ := update_row h₂
  obtain ⟨r, h₀, hcase₀⟩ := update_row h₁
  refine ⟨r, h₀, ?_⟩
  have hfirst : ReflTransGen RowStep r r₁ := by
    rcases hcase₀ with ⟨hg, rfl⟩ | rfl
    · exact .single (.sweptCancelled current hg)
    · exact .refl
  have hsecond : ReflTransGen RowStep r₁ r₂ := by
    rcases hcase₁ with ⟨hg, rfl⟩ | rfl
    · exact .single (.sweptDeadline current hg)
    · exact .refl
  have hthird : ReflTransGen RowStep r₂ r' := by
    rcases hcase₂ with ⟨hg, rfl⟩ | rfl
    · exact .single (.sweptExpired current hg)
    · exact .refl
  exact hfirst.trans (hsecond.trans hthird)

theorem JobLedger.mem_selectDue {limit : Nat} (h : j ∈ l.selectDue jobType current limit) :
    ∃ r, l.find? j = some r ∧ due jobType current r = true := by
  obtain ⟨r, hr, rfl⟩ := List.mem_map.1 h
  have hsorted := List.mem_of_mem_take hr
  rw [List.mem_insertionSort, List.mem_filter] at hsorted
  exact ⟨r, Table.find?_of_mem hsorted.1, hsorted.2⟩

theorem JobLedger.nodup_selectDue (l : JobLedger) (jobType current : Str) (limit : Nat) :
    (l.selectDue jobType current limit).Nodup := by
  have hsub : (((l.jobs.rows.filter (due jobType current)).insertionSort claimOrder).take
      limit).Sublist _ := List.take_sublist ..
  refine (hsub.map DurableJob.jobId).nodup ?_
  exact ((List.perm_insertionSort claimOrder _).map DurableJob.jobId).nodup_iff.2
    ((List.filter_sublist.map DurableJob.jobId).nodup l.jobs.unique)

theorem claim_not_claimable (r : DurableJob) :
    claimable ((JobAssignment.claim workerId lease current).apply r) = false := by
  simp [claimable, DurableJob.waiting, JobAssignment.claim]

/-- The loop claims exactly the listed rows that are claimable when it starts. -/
theorem claimRows_find? (l : JobLedger) :
    (JobLedger.claimRows workerId lease current ids l).2.find? j =
      (l.find? j).map fun r => if j ∈ ids ∧ claimable r = true then
        (JobAssignment.claim workerId lease current).apply r else r := by
  induction ids generalizing l with
  | nil => simp [JobLedger.claimRows]
  | cons id rest ih =>
    rw [JobLedger.claimRows, ih, JobLedger.find?_updateJob, Option.map_map]
    refine Option.map_congr fun r hr => ?_
    have hkey : r.jobId = j := JobLedger.jobId_of_find? hr
    by_cases hready : claimable r = true
    · by_cases hid : j = id
      · subst hid
        simp [hkey, hready, claim_not_claimable]
      · simp [hkey, hready, hid]
    · simp [hready]

/-- After the update of one identifier only the other rows are still claimable. -/
theorem find?_claim_iff {id k : Str} :
    (l.updateJob id claimable (.claim workerId lease current)).2.find? k = some r ∧
        claimable r = true ↔ k ≠ id ∧ l.find? k = some r ∧ claimable r = true := by
  rw [JobLedger.find?_updateJob]
  constructor
  · rintro ⟨hfind, hready⟩
    obtain ⟨old, hold, hset⟩ := Option.map_eq_some_iff.1 hfind
    have hkey : old.jobId = k := JobLedger.jobId_of_find? hold
    split at hset
    · rw [← hset, claim_not_claimable] at hready
      exact Bool.noConfusion hready
    · next hne =>
      subst hset
      exact ⟨fun hid => hne ⟨hkey.trans hid, hready⟩, hold, hready⟩
  · rintro ⟨hne, hold, hready⟩
    have hkey : r.jobId = k := JobLedger.jobId_of_find? hold
    simp [hold, hkey, hne, hready]

theorem mem_claimRows (l : JobLedger) :
    r' ∈ (JobLedger.claimRows workerId lease current ids l).1 ↔
      ∃ r, l.find? r'.jobId = some r ∧ r'.jobId ∈ ids ∧ claimable r = true ∧
        r' = (JobAssignment.claim workerId lease current).apply r := by
  induction ids generalizing l with
  | nil => simp [JobLedger.claimRows]
  | cons id rest ih =>
    rw [JobLedger.claimRows]
    dsimp only
    have hrest : (∃ r, (l.updateJob id claimable (.claim workerId lease current)).2.find?
          r'.jobId = some r ∧ r'.jobId ∈ rest ∧ claimable r = true ∧
            r' = (JobAssignment.claim workerId lease current).apply r) ↔
        r'.jobId ≠ id ∧ ∃ r, l.find? r'.jobId = some r ∧ r'.jobId ∈ rest ∧ claimable r = true ∧
          r' = (JobAssignment.claim workerId lease current).apply r := by
      constructor
      · rintro ⟨r, hfind, hmem, hready, hset⟩
        obtain ⟨hne, hold, _⟩ := find?_claim_iff.1 ⟨hfind, hready⟩
        exact ⟨hne, r, hold, hmem, hready, hset⟩
      · rintro ⟨hne, r, hold, hmem, hready, hset⟩
        exact ⟨r, (find?_claim_iff.2 ⟨hne, hold, hready⟩).1, hmem, hready, hset⟩
    split
    · next hupdated =>
      obtain ⟨r₀, hfind₀, hready₀⟩ := JobLedger.updateJob_fst.1 hupdated
      have hkey₀ : r₀.jobId = id := JobLedger.jobId_of_find? hfind₀
      have hread : (l.updateJob id claimable (.claim workerId lease current)).2.find? id =
          some ((JobAssignment.claim workerId lease current).apply r₀) := by
        simp [JobLedger.find?_updateJob, hfind₀, hkey₀, hready₀]
      rw [hread, Option.toList_some, List.singleton_append, List.mem_cons, ih, hrest]
      constructor
      · rintro (rfl | ⟨_, r, hold, hmem, hready, hset⟩)
        · exact ⟨r₀, by simpa [JobAssignment.claim, hkey₀] using hfind₀,
            by simp [JobAssignment.claim, hkey₀], hready₀, rfl⟩
        · exact ⟨r, hold, List.mem_cons_of_mem _ hmem, hready, hset⟩
      · rintro ⟨r, hold, hmem, hready, hset⟩
        by_cases hid : r'.jobId = id
        · rw [hid, hfind₀, Option.some.injEq] at hold
          exact .inl (hold ▸ hset)
        · exact .inr ⟨hid, r, hold, (List.mem_cons.1 hmem).resolve_left hid, hready, hset⟩
    · next hkept =>
      rw [ih, hrest]
      constructor
      · rintro ⟨_, r, hold, hmem, hready, hset⟩
        exact ⟨r, hold, List.mem_cons_of_mem _ hmem, hready, hset⟩
      · rintro ⟨r, hold, hmem, hready, hset⟩
        have hid : r'.jobId ≠ id := fun hid =>
          hkept (JobLedger.updateJob_fst.2 ⟨r, hid ▸ hold, hready⟩)
        exact ⟨hid, r, hold, (List.mem_cons.1 hmem).resolve_left hid, hready, hset⟩

theorem claimRows_sublist (l : JobLedger) :
    ((JobLedger.claimRows workerId lease current ids l).1.map DurableJob.jobId).Sublist ids := by
  induction ids generalizing l with
  | nil => simp [JobLedger.claimRows]
  | cons id rest ih =>
    rw [JobLedger.claimRows]
    dsimp only
    split
    · next hupdated =>
      obtain ⟨r₀, hfind₀, hready₀⟩ := JobLedger.updateJob_fst.1 hupdated
      have hkey₀ : r₀.jobId = id := JobLedger.jobId_of_find? hfind₀
      have hread : (l.updateJob id claimable (.claim workerId lease current)).2.find? id =
          some ((JobAssignment.claim workerId lease current).apply r₀) := by
        simp [JobLedger.find?_updateJob, hfind₀, hkey₀, hready₀]
      rw [hread, Option.toList_some, List.singleton_append, List.map_cons,
        ((JobAssignment.claim workerId lease current).keeps r₀), hkey₀]
      exact (ih _).cons_cons id
    · exact (ih _).cons id

theorem claimJobs_spec {limit : Int} {leaseSeconds : Seconds} {rows : List DurableJob}
    (h : claimJobs jobType workerId limit leaseSeconds now l = .ok (rows, l')) :
    ∃ leaseEnd bounded, (rows, l') = JobLedger.claimRows workerId leaseEnd (isoUtc now)
      ((l.sweep (isoUtc now)).selectDue jobType (isoUtc now) bounded) (l.sweep (isoUtc now)) := by
  simp only [claimJobs, bind_eq_ok, Except.ok.injEq] at h
  obtain ⟨leaseEnd, _, _, _, _, _, h⟩ := h
  exact ⟨isoUtc leaseEnd, _, h.symm⟩

end Claim

section Cases

/-- Inversion of a call that commits. -/
theorem mapReply_eq_ok {α : Type} {t : Transaction JobLedger α} {f : α → Reply} {reply : Reply}
    (h : t.mapReply f l = .ok (reply, l')) : ∃ a, t l = .ok (a, l') ∧ f a = reply := by
  unfold Transaction.mapReply at h
  cases ht : t l with
  | error e => simp [ht, Except.map] at h
  | ok p =>
    simp only [ht, Except.map, Except.ok.injEq, Prod.mk.injEq] at h
    exact ⟨p.1, by rw [← h.2], h.1⟩

variable [PythonText] {c : Call}

theorem Call.claimed_of_run {reply : Reply} (h : c.run l = .ok (reply, l')) :
    c.claimed l = reply.claimedRows := by
  simp only [Call.claimed, Transaction.reply, h, Except.map]

theorem Call.succeeds_of_run {reply : Reply} (h : c.run l = .ok (reply, l')) :
    c.succeeds l = reply.isTrue := by
  simp only [Call.succeeds, Transaction.reply, h, Except.map]

/-- A claim returns each job at most once. -/
theorem Call.nodup_claimed (c : Call) (l : JobLedger) :
    ((c.claimed l).map DurableJob.jobId).Nodup := by
  cases hrun : c.run l with
  | error e => simp [Call.claimed, Transaction.reply, hrun, Except.map]
  | ok p =>
    obtain ⟨reply, l'⟩ := p
    rw [Call.claimed_of_run hrun]
    cases reply with
    | rows rows =>
      cases c with
      | claimJobs jobType workerId limit lease now =>
        obtain ⟨rows', hclaim, hrows⟩ := mapReply_eq_ok hrun
        obtain ⟨leaseEnd, bounded, hpair⟩ := claimJobs_spec hclaim
        obtain rfl : rows' = rows := Reply.rows.inj hrows
        rw [Reply.claimedRows, show rows' = _ from congrArg Prod.fst hpair]
        exact (claimRows_sublist _).nodup (JobLedger.nodup_selectDue ..)
      | _ =>
        obtain ⟨a, -, ha⟩ := mapReply_eq_ok hrun
        simp at ha
    | _ => exact List.nodup_nil

theorem step_of_run {reply : Reply} (h : c.run l = .ok (reply, l')) : step l c = l' :=
  Transaction.commit_of_ok h

/-- A failing call changes no row. -/
theorem row_cases_of_error {e : PyError} (herr : c.run l = .error e)
    (h : (step l c).find? j = some r') : RowCase c l j r' := by
  have hsame : step l c = l := Transaction.commit_of_error herr
  have hreply : c.run.reply l = .error e := by simp [Transaction.reply, herr, Except.map]
  refine .plain (hsame ▸ h) .refl ?_ ?_ ?_
  · simp [Call.claims, Call.claimed, hreply]
  · cases c <;> simp [Call.defers, Call.succeeds, hreply]
  · cases c <;> simp [Call.requeues, hreply, Except.isOk, Except.toBool]

/-- A guarded update of one row that is a plain step where the guard holds. -/
theorem row_cases_of_update {g : DurableJob → Bool} {f : JobAssignment} {reply : Reply}
    (hrun : c.run l = .ok (reply, l')) (hl : l' = (l.updateJob jobId g f).2)
    (hstep : ∀ r, g r = true → RowStep r (f.apply r)) (hrows : ∀ rows, reply ≠ .rows rows)
    (hdefer : ∀ i w t d s n, c ≠ .deferJob i w t d s n)
    (hrequeue : ∀ i d n, c ≠ .requeueJob i d n)
    (h : (step l c).find? j = some r') : RowCase c l j r' := by
  rw [step_of_run hrun, hl] at h
  obtain ⟨r, hr, hcase⟩ := JobLedger.updateJob_row h
  have hpath : ReflTransGen RowStep r r' := by
    rcases hcase with ⟨_, hg, rfl⟩ | ⟨_, rfl⟩
    · exact .single (hstep r hg)
    · exact .refl
  refine .plain hr hpath ?_ ?_ ?_
  · rw [Call.claims, Call.claimed_of_run hrun]
    cases reply with
    | rows rows => exact absurd rfl (hrows rows)
    | _ => rfl
  · cases c with
    | deferJob i w t d s n => exact absurd rfl (hdefer i w t d s n)
    | _ => rfl
  · cases c with
    | requeueJob i d n => exact absurd rfl (hrequeue i d n)
    | _ => rfl

/-- A call that leaves the ledger as it was and claims, defers and requeues nothing. -/
theorem row_cases_of_same {reply : Reply} (hrun : c.run l = .ok (reply, l))
    (hreply : ∀ rows, reply = .rows rows → rows = []) (hflag : reply ≠ .flag true)
    (hrequeue : ∀ i d n, c ≠ .requeueJob i d n) (h : (step l c).find? j = some r') :
    RowCase c l j r' := by
  rw [step_of_run hrun] at h
  refine .plain h .refl ?_ ?_ ?_
  · rw [Call.claims, Call.claimed_of_run hrun]
    cases reply with
    | rows rows => simp [hreply rows rfl, Reply.claimedRows]
    | _ => rfl
  · cases c with
    | deferJob i w t d s n =>
      rw [Call.defers, Call.succeeds_of_run hrun]
      cases reply with
      | flag b =>
        cases b with
        | true => exact absurd rfl hflag
        | false => exact Bool.and_false _
      | _ => exact Bool.and_false _
    | _ => rfl
  · cases c with
    | requeueJob i d n => exact absurd rfl (hrequeue i d n)
    | _ => rfl

theorem claimJobs_row_cases {jobType workerId : Str} {limit : Int} {lease : Seconds}
    {reply : Reply} (hrun : (Call.claimJobs jobType workerId limit lease now).run l =
      .ok (reply, l')) (h : l'.find? j = some r') :
    RowCase (.claimJobs jobType workerId limit lease now) l j r' := by
  obtain ⟨rows, hclaim, rfl⟩ := mapReply_eq_ok hrun
  obtain ⟨leaseEnd, bounded, hpair⟩ := claimJobs_spec hclaim
  rw [Prod.mk.injEq] at hpair
  obtain ⟨hrows, hledger⟩ := hpair
  have hclaimed := Call.claimed_of_run hrun
  rw [Reply.claimedRows] at hclaimed
  rw [hledger, claimRows_find?] at h
  obtain ⟨m, hm, hset⟩ := Option.map_eq_some_iff.1 h
  obtain ⟨r, hr, hsweep⟩ := JobLedger.sweep_row hm
  have hkey : m.jobId = j := JobLedger.jobId_of_find? hm
  split at hset
  · next hsel =>
    subst hset
    obtain ⟨m', hm', hdue⟩ := JobLedger.mem_selectDue hsel.1
    obtain rfl : m' = m := Option.some.inj (hm'.symm.trans hm)
    have hattempt : m'.attemptCount < m'.maxAttempts := by simp [due] at hdue; omega
    refine .claimed rfl leaseEnd (isoUtc now) hr hsweep hsel.2 hattempt ?_
    rw [hclaimed, hrows, mem_claimRows]
    exact ⟨m', by simpa [JobAssignment.claim, hkey] using hm,
      by simpa [JobAssignment.claim, hkey] using hsel.1, hsel.2, rfl⟩
  · next hnot =>
    subst hset
    refine .plain hr hsweep ?_ rfl rfl
    rw [Call.claims, hclaimed, hrows, List.any_eq_false]
    intro r₁ hr₁ hkey₁
    rw [decide_eq_true_eq] at hkey₁
    obtain ⟨m₁, hm₁, hmem₁, hready₁, -⟩ := (mem_claimRows _).1 hr₁
    rw [hkey₁] at hm₁ hmem₁
    obtain rfl : m₁ = m := Option.some.inj (hm₁.symm.trans hm)
    exact hnot ⟨hmem₁, hready₁⟩

theorem row_cases (h : (step l c).find? j = some r') : RowCase c l j r' := by
  cases hrun : c.run l with
  | error e => exact row_cases_of_error hrun h
  | ok p =>
    obtain ⟨reply, l'⟩ := p
    cases c with
    | enqueueJob a now =>
      obtain ⟨persisted, henqueue, rfl⟩ := mapReply_eq_ok hrun
      obtain ⟨row, hrow, hinsert⟩ := enqueueJob_spec henqueue
      rcases insertOrIgnore_spec hinsert j with ⟨hfind, hfresh⟩ | rfl
      · rw [step_of_run hrun, hfind] at h
        split at h
        · next hkey =>
          obtain rfl := Option.some.inj h
          exact .created rfl (hkey ▸ hfresh) hrow
        · exact .plain h .refl (by simp [Call.claims, Call.claimed_of_run hrun, Reply.claimedRows]) rfl rfl
      · exact row_cases_of_same hrun (by simp) (by simp) (by simp) h
    | claimJobs jobType workerId limit lease now =>
      exact claimJobs_row_cases hrun (step_of_run hrun ▸ h)
    | completeJob jobId workerId token now =>
      obtain ⟨b, hop, rfl⟩ := mapReply_eq_ok hrun
      refine row_cases_of_update hrun (congrArg Prod.snd (completeJob_spec hop)) (fun r hg => ?_)
        (by simp) (by simp) (by simp) h
      simp only [Bool.and_eq_true, decide_eq_true_eq, Option.isNone_iff_eq_none] at hg
      exact .completed _ hg.1.1 hg.1.2
    | retryJob jobId workerId errorCode delay token now =>
      obtain ⟨b, hop, rfl⟩ := mapReply_eq_ok hrun
      rcases retryJob_spec hop with ⟨rfl, rfl, -⟩ | ⟨row, availableAt, hfind, hleased, hpair⟩
      · exact row_cases_of_same hrun (by simp) (by simp) (by simp) h
      · rw [step_of_run hrun, show l' = _ from congrArg Prod.snd hpair] at h
        obtain ⟨r, hr, hcase⟩ := JobLedger.updateJob_row h
        rcases hcase with ⟨rfl, -, rfl⟩ | ⟨-, rfl⟩
        · obtain rfl : r = row := Option.some.inj (hr.symm.trans hfind)
          have howner : r.leaseOwner.isSome := by simp [(DurableJob.leasedBy_iff.1 hleased).1]
          exact .plain hr (.single (.retried _ _ _ howner))
            (by simp [Call.claims, Call.claimed_of_run hrun, Reply.claimedRows]) rfl rfl
        · exact .plain hr .refl (by simp [Call.claims, Call.claimed_of_run hrun, Reply.claimedRows]) rfl rfl
    | deferJob jobId workerId token delay state now =>
      obtain ⟨b, hop, rfl⟩ := mapReply_eq_ok hrun
      obtain ⟨availableAt, hpair⟩ := deferJob_spec hop
      have hflag := congrArg Prod.fst hpair
      dsimp only at hflag
      have hnone : (Call.deferJob jobId workerId token delay state now).claims l j = false := by
        simp [Call.claims, Call.claimed_of_run hrun, Reply.claimedRows]
      rw [step_of_run hrun, show l' = _ from congrArg Prod.snd hpair] at h
      obtain ⟨r, hr, hcase⟩ := JobLedger.updateJob_row h
      rcases hcase with ⟨rfl, hg, rfl⟩ | ⟨hnot, rfl⟩
      · obtain ⟨hstatus, -, -, hcancel⟩ := activeLease_iff.1 hg
        refine .deferred _ _ _ hr hstatus hcancel ?_
        simp [Call.defers, Call.succeeds_of_run hrun, Reply.isTrue, hflag, JobLedger.updateJob_fst.2 ⟨r, hr, hg⟩]
      · refine .plain hr .refl hnone ?_ rfl
        rw [Call.defers, Call.succeeds_of_run hrun, Bool.and_eq_false_iff]
        by_cases hj : jobId = j
        · refine .inr ?_
          by_contra hb
          rw [Bool.not_eq_false] at hb
          rw [Reply.isTrue] at hb
          rw [hb] at hflag
          obtain ⟨r₁, hr₁, hg₁⟩ := JobLedger.updateJob_fst.1 hflag.symm
          rw [hj] at hr₁
          obtain rfl : r₁ = r' := Option.some.inj (hr₁.symm.trans hr)
          exact hnot ⟨hj.symm, hg₁⟩
        · exact .inl (by simpa using hj)
    | deadLetterJob jobId workerId token errorCode now =>
      obtain ⟨b, hop, rfl⟩ := mapReply_eq_ok hrun
      refine row_cases_of_update hrun (congrArg Prod.snd (deadLetterJob_spec hop)) (fun r hg => ?_)
        (by simp) (by simp) (by simp) h
      rw [Bool.and_eq_true, decide_eq_true_eq] at hg
      exact .deadLettered _ _ hg.1
    | renewLease jobId workerId token lease now =>
      obtain ⟨b, hop, rfl⟩ := mapReply_eq_ok hrun
      obtain ⟨leaseEnd, hpair⟩ := renewLease_spec hop
      exact row_cases_of_update hrun (congrArg Prod.snd hpair)
        (fun r hg => .renewed _ _ (activeLease_iff.1 hg).1) (by simp) (by simp) (by simp) h
    | updateProgress jobId workerId token stage current total now =>
      obtain ⟨b, hop, rfl⟩ := mapReply_eq_ok hrun
      refine row_cases_of_update hrun (congrArg Prod.snd (updateProgress_spec hop))
        (fun r hg => .progressed _ _ _ _ (activeLease_iff.1 hg).1 ?_) (by simp) (by simp)
        (by simp) h
      intro t ht
      obtain ⟨t₀, -, rfl⟩ := Option.map_eq_some_iff.1 ht
      exact le_max_left _ _
    | checkpointPayload jobId workerId token payload now =>
      obtain ⟨b, hop, rfl⟩ := mapReply_eq_ok hrun
      obtain ⟨encoded, hpair⟩ := checkpointPayload_spec hop
      exact row_cases_of_update hrun (congrArg Prod.snd hpair)
        (fun r hg => .checkpointed _ _ (activeLease_iff.1 hg).1) (by simp) (by simp) (by simp) h
    | setProviderOperation jobId workerId token operation state now =>
      obtain ⟨b, hop, rfl⟩ := mapReply_eq_ok hrun
      exact row_cases_of_update hrun (congrArg Prod.snd (setProviderOperation_spec hop))
        (fun r hg => .providerSet _ _ _ (activeLease_iff.1 hg).1) (by simp) (by simp) (by simp) h
    | acknowledgeCancel jobId workerId token now =>
      obtain ⟨b, hop, rfl⟩ := mapReply_eq_ok hrun
      refine row_cases_of_update hrun (congrArg Prod.snd (acknowledgeCancel_spec hop))
        (fun r hg => ?_) (by simp) (by simp) (by simp) h
      simp only [Bool.and_eq_true, decide_eq_true_eq] at hg
      exact .cancelAcknowledged _ hg.1.1 hg.2
    | releaseJobs jobType aggregateId state now =>
      obtain ⟨n, hop, rfl⟩ := mapReply_eq_ok hrun
      obtain ⟨g, normalizedState, hguard, rfl⟩ := releaseJobs_spec hop
      rw [step_of_run hrun] at h
      obtain ⟨r, hr, hcase⟩ := JobLedger.update_row h
      have hnone : (Call.releaseJobs jobType aggregateId state now).claims l j = false := by
        simp [Call.claims, Call.claimed_of_run hrun, Reply.claimedRows]
      rcases hcase with ⟨hg, rfl⟩ | rfl
      · exact .plain hr (.single (.released _ _ (hguard r hg).1)) hnone rfl rfl
      · exact .plain hr .refl hnone rfl rfl
    | requestCancel jobId now =>
      obtain ⟨row, hop, rfl⟩ := mapReply_eq_ok hrun
      have hnone : (Call.requestCancel jobId now).claims l j = false := by
        simp [Call.claims, Call.claimed_of_run hrun, Reply.claimedRows]
      rw [step_of_run hrun] at h
      rcases requestCancel_spec hop with ⟨rfl, -⟩ | ⟨r₀, hfind, hfin, rfl⟩
      · exact .plain h .refl hnone rfl rfl
      · obtain ⟨r, hr, hcase⟩ := JobLedger.updateJob_row h
        rcases hcase with ⟨rfl, -, rfl⟩ | ⟨-, rfl⟩
        · obtain rfl : r = r₀ := Option.some.inj (hr.symm.trans hfind)
          exact .plain hr (.single (.cancelRequested _ hfin)) hnone rfl rfl
        · exact .plain hr .refl hnone rfl rfl
    | requeueJob jobId delay now =>
      obtain ⟨row, hop, rfl⟩ := mapReply_eq_ok hrun
      obtain ⟨availableAt, rfl, -⟩ := requeueJob_spec hop
      have hok : ((Call.requeueJob jobId delay now).run.reply l).isOk = true := by
        simp [Transaction.reply, hrun, Except.map, Except.isOk, Except.toBool]
      rw [step_of_run hrun] at h
      obtain ⟨r, hr, hcase⟩ := JobLedger.updateJob_row h
      rcases hcase with ⟨rfl, hg, rfl⟩ | ⟨hnot, rfl⟩
      · exact .requeued _ _ hr hg (by simp [Call.requeues, hok, hr, hg])
      · refine .plain hr .refl (by simp [Call.claims, Call.claimed_of_run hrun, Reply.claimedRows]) rfl ?_
        by_cases hj : jobId = j
        · have hguard : requeueable r' = false := by
            by_contra hg
            exact hnot ⟨hj.symm, by simpa using hg⟩
          simp [Call.requeues, hr, hguard]
        · simp [Call.requeues, hj]

end Cases

end HardyAI.Jobs
