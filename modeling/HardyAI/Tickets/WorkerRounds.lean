import HardyAI.Tickets.ClaimedWatchdogs

/-! A round of the review worker: what it owes to the jobs that it claims, and when a ticket
keeps it from that. -/

open Foundation Foundation.Json Foundation.Program HardyAI.Jobs Relation

namespace HardyAI.Tickets

section Claims

/-- The jobs of a type that were claimed. -/
def claimed (jobType : Str) (h : History Op.Reply) : List DurableJob :=
  h.flatMap fun
    | ⟨.claimJobs t _ _ _, .ok jobs⟩ => if t = jobType then jobs else []
    | _ => []

def Op.claims : Op → Bool
  | .claimJobs .. => true
  | _ => false

def Unclaiming (_ : History Op.Reply) (op : Op) : Prop := op.claims = false

variable {h h' : History Op.Reply} {cfg : ReviewConfig}

theorem claimed_append (jobType : Str) :
    claimed jobType (h ++ h') = claimed jobType h ++ claimed jobType h' := List.flatMap_append

theorem claimed_eq_nil {α : Type} {p : Process α} {x : Except PyError α}
    (hsafe : Safe Unclaiming [] p) (hrun : Runs p h x) (jobType : Str) :
    claimed jobType h = [] := by
  refine List.flatMap_eq_nil_iff.2 fun e he => ?_
  obtain ⟨a, b, rfl⟩ := List.append_of_mem he
  have hop : e.1.claims = false := hsafe.allowed hrun a e.1 e.2 b rfl
  obtain ⟨op, r⟩ := e
  cases op with
  | claimJobs => cases hop
  | _ => rfl

theorem safe_unclaiming {op : Op} (hop : op.claims = false) : Safe Unclaiming h (ask op) :=
  safe_perform hop

theorem unclaiming_of_steady {α : Type} {p : Process α} (hp : Safe Steady h p) :
    Safe Unclaiming h p := by
  refine hp.mono fun _ op hop => ?_
  cases op with
  | claimJobs => cases hop
  | _ => rfl

variable [PythonText]

omit [PythonText] in
theorem transitionProcess_unclaiming (a : TransitionArgs) :
    Safe Unclaiming h (transitionProcess a) :=
  Safe.raising (safe_unclaiming rfl)

omit [PythonText] in
theorem reconcileTicket_unclaiming (ticketId reason : Str) :
    Safe Unclaiming h (reconcileTicket ticketId reason) :=
  Safe.bind (transitionProcess_unclaiming _) fun _ _ _ => safe_pure

omit [PythonText] in
theorem recordCompletions_unclaiming (ticketId requestId : Str) (receipts : List ReceiptRow) :
    Safe Unclaiming h (recordCompletions ticketId requestId receipts) := by
  induction receipts generalizing h with
  | nil => exact safe_pure
  | cons receipt rest ih =>
    refine Safe.bind (safe_unclaiming rfl) fun _ expectationId _ => ?_
    refine Safe.bind (safe_unclaiming rfl) fun _ entryId _ => ?_
    exact Safe.bind (safe_unclaiming rfl).raising fun _ _ _ => ih

omit [PythonText] in
theorem attempt_unclaiming {α : Type} {p : Process α} (hp : Safe Unclaiming h p) :
    Safe Unclaiming h (attempt p) := by
  refine Safe.handle (Safe.bind hp fun _ _ _ => safe_pure) fun _ e _ => ?_
  exact Safe.ite safe_pure safe_raise

theorem scheduleFinalized_unclaiming (ticketId : Str) (receipts : List ReceiptRow) :
    Safe Unclaiming h (scheduleFinalized cfg ticketId receipts) := by
  refine Safe.bind (safe_unclaiming rfl) fun _ expectations _ => ?_
  refine Safe.ite (reconcileTicket_unclaiming ..) ?_
  refine Safe.bind safe_ofExcept fun _ revision _ => Safe.bind safe_ofExcept fun _ expected _ => ?_
  refine Safe.bind (transitionProcess_unclaiming _) fun _ _ _ => ?_
  refine Safe.bind (safe_unclaiming rfl) fun _ jobId _ => ?_
  exact Safe.bind (safe_unclaiming rfl).raising fun _ _ _ => safe_pure

theorem watchTicket_unclaiming (ticketId : Str) (ticket : Option Ticket) :
    Safe Unclaiming h (watchTicket cfg ticketId ticket) := by
  cases ticket with
  | none => exact safe_pure
  | some ticket =>
    refine Safe.ite (Safe.bind (safe_unclaiming rfl) fun _ manifests _ => ?_) safe_pure
    cases manifests with
    | nil =>
      refine Safe.ite (Safe.bind (safe_unclaiming rfl) fun _ receipts _ => ?_) safe_pure
      cases receipts with
      | nil => exact reconcileTicket_unclaiming ..
      | cons receipt rest =>
        refine Safe.bind (safe_unclaiming rfl) fun _ receipts _ => ?_
        refine Safe.bind (safe_unclaiming rfl) fun _ ticket _ => ?_
        refine Safe.bind (attempt_unclaiming (recordCompletions_unclaiming ..)) fun _ done _ => ?_
        cases done with
        | none => exact reconcileTicket_unclaiming ..
        | some _ => exact scheduleFinalized_unclaiming ..
    | cons entry rest =>
      have hreduce : ∀ h, Safe Unclaiming h (reduceProcess ticketId) :=
        fun h => unclaiming_of_steady (steady_safe (reduceProcess_quiet ticketId))
      refine Safe.bind (attempt_unclaiming (hreduce _)) fun _ aggregate _ => ?_
      cases aggregate with
      | none => exact reconcileTicket_unclaiming ..
      | some aggregate =>
        refine Safe.ite (Safe.bind (safe_unclaiming rfl) fun _ receipts _ => ?_) ?_
        · exact scheduleFinalized_unclaiming ..
        · exact Safe.bind (transitionProcess_unclaiming _) fun _ _ _ => safe_pure

theorem runWatchdogs_unclaiming (jobs : List DurableJob) :
    Safe Unclaiming h (runWatchdogs cfg jobs) := by
  induction jobs generalizing h with
  | nil => exact safe_pure
  | cons job jobs ih =>
    refine Safe.bind ?_ fun _ result _ => Safe.bind ih fun _ results _ => safe_pure
    refine Safe.bind safe_ofExcept fun _ ticketId _ => ?_
    refine Safe.bind (safe_unclaiming rfl) fun _ ticket _ => ?_
    refine Safe.bind (watchTicket_unclaiming ..) fun _ result _ => ?_
    exact Safe.bind (safe_unclaiming rfl).raising fun _ _ _ => safe_pure

theorem runReviews_unclaiming (completedAt : Str) (jobs : List DurableJob) :
    Safe Unclaiming h (runReviews cfg completedAt jobs) := by
  induction jobs generalizing h with
  | nil => exact safe_pure
  | cons job jobs ih =>
    refine Safe.bind ?_ fun _ result _ => Safe.bind ih fun _ results _ => safe_pure
    refine Safe.handle ?_ fun _ e _ => ?_
    · refine Safe.bind (unclaiming_of_steady (processJob_steady ..)) fun _ outcome _ => ?_
      exact Safe.bind (safe_unclaiming rfl).raising fun _ _ _ => safe_pure
    · refine Safe.bind safe_ofExcept fun _ delay _ => ?_
      refine Safe.bind (safe_unclaiming rfl).raising fun _ _ _ => ?_
      refine Safe.bind (safe_unclaiming rfl) fun _ persisted _ => Safe.ite ?_ safe_pure
      refine Safe.bind safe_ofExcept fun _ ticketId _ => Safe.ite safe_pure ?_
      refine Safe.bind (unclaiming_of_steady (escalateTicket_steady ..)) fun _ _ _ => ?_
      exact safe_pure

end Claims

section Claiming

variable {cfg : ReviewConfig} {latest : Instant} {m db' : TicketDb} {l : JobLedger} {j : Str}
  {r : DurableJob}

/-- A completed job is not swept. -/
theorem find?_sweep_of_completed (hr : l.find? j = some r) (hcompleted : r.status = .completed)
    (current : Str) : (l.sweep current).find? j = some r := by
  have hwaiting : r.waiting = false := by simp [DurableJob.waiting, hcompleted]
  have hfirst : cancelPending r = false := by simp [cancelPending, hwaiting]
  have hsecond : deadlinePassed current r = false := by simp [deadlinePassed, hwaiting]
  have hthird : leaseExpired current r = false := by simp [leaseExpired, hcompleted]
  simp [JobLedger.sweep, JobLedger.find?_update, hr, hfirst, hsecond, hthird]

variable [PythonText]

/-- A claim is served, and the worker holds what it has claimed. -/
theorem serve_claimJobs (hgranted : Granted cfg latest) {jobType : Str} {limit : Int}
    {leaseSeconds : Seconds} (htype : encodable jobType = true)
    (hlease : ∀ now ≤ latest, ∃ t, Instant.add now (leaseSeconds.atLeast 1000000) = .ok t)
    {reply : Except PyError (List DurableJob)}
    (hserve : Serve latest m (.claimJobs jobType cfg.workerId limit leaseSeconds) reply db') :
    ∃ jobs ledger, reply = .ok jobs ∧ db' = { m with jobs := ledger } ∧
      (∀ job ∈ jobs, Leased cfg db' job) ∧ (jobs.map DurableJob.jobId).Nodup ∧
      ∀ j r, m.jobs.find? j = some r → r.status = .completed → ledger.find? j = some r := by
  obtain ⟨now, hnow, hcommits⟩ := hserve
  obtain ⟨leaseEnd, hend⟩ := hlease now hnow
  let swept := m.jobs.sweep (isoUtc now)
  let selected := swept.selectDue jobType (isoUtc now) (max 1 (min limit 100)).toNat
  let result := JobLedger.claimRows cfg.workerId (isoUtc leaseEnd) (isoUtc now) selected swept
  have htypeBound : bindParameters [.text jobType] = .ok () := by
    refine bindParameters_ok fun p hp => ?_
    rw [List.mem_singleton.1 hp]
    exact error?_text htype
  have hworkerBound : bindParameters (if selected.isEmpty then [] else [.text cfg.workerId]) =
      .ok () := by
    refine bindParameters_ok fun p hp => ?_
    split at hp
    · cases hp
    · rw [List.mem_singleton.1 hp]
      exact error?_text hgranted.worker
  have hclaim : claimJobs jobType cfg.workerId limit leaseSeconds now m.jobs = .ok result := by
    simp only [claimJobs, bind_eq_ok]
    exact ⟨leaseEnd, hend, (), htypeBound, (), hworkerBound, rfl⟩
  have hrun : onJobs (claimJobs jobType cfg.workerId limit leaseSeconds now) m =
      .ok (result.1, { m with jobs := result.2 }) := by
    rw [onJobs, hclaim]
    rfl
  obtain ⟨rfl, rfl⟩ := hcommits.ok hrun
  refine ⟨result.1, result.2, rfl, rfl, fun job hjob => ?_, ?_, fun j r hr hcompleted => ?_⟩
  · obtain ⟨old, hold, hmem, hready, hset⟩ := (mem_claimRows swept).1 hjob
    have hclaimable : old.waiting = true ∧ old.cancelRequestedAt = none := by
      simpa [claimable] using hready
    refine ⟨?_, by rw [hset]; rfl, by rw [hset]; rfl, by rw [hset]; exact hclaimable.2⟩
    show result.2.find? job.jobId = some job
    rw [claimRows_find?, hold, Option.map_some, if_pos ⟨hmem, hready⟩, ← hset]
  · exact (claimRows_sublist swept).nodup (JobLedger.nodup_selectDue ..)
  · have hswept : swept.find? j = some r := find?_sweep_of_completed hr hcompleted _
    have hnot : ¬(j ∈ selected ∧ claimable r = true) := by
      rintro ⟨-, hready⟩
      simp [claimable, DurableJob.waiting, hcompleted] at hready
    rw [claimRows_find?, hswept, Option.map_some, if_neg hnot]

end Claiming

section Rounds

variable [PythonText] {cfg : ReviewConfig} {latest : Instant} {db db' : TicketDb}
  {h : History Op.Reply} {x : Except PyError (List WorkerResult)} {completedAt : Str}

/-- What a round owes to the jobs that it has claimed. -/
structure Orderly (cfg : ReviewConfig) (db : TicketDb) (h : History Op.Reply)
    (x : Except PyError (List WorkerResult)) (db' : TicketDb) : Prop where
  ended : ∃ results, x = .ok results
  cleared : ∀ job ∈ claimed watchdogType h,
    ∃ r, db'.jobs.find? job.jobId = some r ∧ r.status = .completed
  lawful : ∀ job ∈ claimed watchdogType h, ∀ id t, jobTicketId cfg job = .ok id →
    db.tickets.find? id = some t → ∃ t', db'.tickets.find? id = some t' ∧
      ReflTransGen TicketStatus.Allows t.status t'.status
  settled : ∀ job ∈ claimed reviewType h,
    ∃ r, db'.jobs.find? job.jobId = some r ∧ r.status ∈ settledStatuses

/-- The second half of a round: the claim of the reviews, and the loop over them. -/
theorem reviewStage_ends (hgranted : Granted cfg latest) (hstored : Stored db)
    (cleared : List WorkerResult) (hends : Ends (Serve latest) db (do
      let jobs ← Program.raising
        (ask (.claimJobs reviewType cfg.workerId cfg.batchSize cfg.leaseSeconds))
      let reviewed ← runReviews cfg completedAt jobs
      Pure.pure (cleared ++ reviewed)) h x db') :
    claimed watchdogType h = [] ∧
      ((∀ job ∈ claimed reviewType h, job.attemptCount ≤ 1024) → (∃ results, x = .ok results) ∧
        (∀ job ∈ claimed reviewType h,
          ∃ r, db'.jobs.find? job.jobId = some r ∧ r.status ∈ settledStatuses) ∧
        (∀ j r, db.jobs.find? j = some r → r.status = .completed → db'.jobs.find? j = some r) ∧
        ∀ id t, db.tickets.find? id = some t → ∃ t', db'.tickets.find? id = some t' ∧
          ReflTransGen TicketStatus.Moves t.status t'.status) := by
  have htext : encodable reviewType = true := by decide
  have htypes : reviewType ≠ watchdogType := by decide
  rcases ends_bind.1 hends with ⟨jobs, h₁, h₂, m₁, rfl, hclaim, hrest⟩ | ⟨e, hclaim, -⟩
  case inr =>
    obtain ⟨r, -, hr, hserve⟩ := (ends_raising_perform (Op.claimJobs ..) rfl).1 hclaim
    obtain ⟨_, _, rfl, -⟩ := serve_claimJobs hgranted htext hgranted.lease hserve
    cases hr
  obtain ⟨r, rfl, hr, hserve⟩ := (ends_raising_perform (Op.claimJobs ..) rfl).1 hclaim
  obtain ⟨_, ledger, rfl, rfl, hleased, hnodup, hkept⟩ :=
    serve_claimJobs hgranted htext hgranted.lease hserve
  cases hr
  have hstored₁ : Stored { db with jobs := ledger } := ends_stored hclaim hstored
  have hnone (t : Str) : claimed t h₂ = [] := by
    refine claimed_eq_nil ?_ hrest.1 t
    exact Safe.bind (runReviews_unclaiming ..) fun _ _ _ => safe_pure
  have hclaimed : claimed watchdogType ([⟨.claimJobs reviewType cfg.workerId cfg.batchSize
      cfg.leaseSeconds, .ok jobs⟩] ++ h₂) = [] ∧ claimed reviewType ([⟨.claimJobs reviewType
        cfg.workerId cfg.batchSize cfg.leaseSeconds, .ok jobs⟩] ++ h₂) = jobs := by
    simp only [claimed_append, hnone]
    simp [claimed, htypes]
  rw [hclaimed.2]
  refine ⟨hclaimed.1, fun hattempts => ?_⟩
  rcases ends_bind.1 hrest with ⟨reviewed, h₃, h₄, m₂, rfl, hreviewed, hpure⟩ | ⟨e, hreviewed, -⟩
  · obtain ⟨-, rfl, rfl⟩ := ends_pure.1 hpure
    obtain ⟨_, -, hhandles⟩ :=
      runReviews_handles hgranted hstored₁ hleased hnodup hattempts hreviewed
    refine ⟨⟨_, rfl⟩, hhandles.own, fun j r hr hcompleted => ?_, hhandles.tickets⟩
    have hledger : ledger.find? j = some r := hkept j r hr hcompleted
    refine hhandles.others j r (fun hmem => ?_) hledger
    -- a claimed job is running, and this one is completed
    obtain ⟨job, hjob, rfl⟩ := List.mem_map.1 hmem
    have hrow : ledger.find? job.jobId = some job := (hleased job hjob).row
    cases hledger.symm.trans hrow
    rw [(hleased _ hjob).running] at hcompleted
    cases hcompleted
  · obtain ⟨_, hx, -⟩ := runReviews_handles hgranted hstored₁ hleased hnodup hattempts hreviewed
    cases hx

omit [PythonText] in
theorem allows_of_moves {s s' : TicketStatus} (h : ReflTransGen TicketStatus.Moves s s') :
    ReflTransGen TicketStatus.Allows s s' := by
  induction h with
  | refl => exact .refl
  | tail _ hmove ih => exact ih.tail hmove.1

/-- A round raises where one of its watchdogs has a doomed ticket, and where no job has been tried
too often it raises nowhere else. -/
theorem runOnce_ends (hgranted : Granted cfg latest) (hstored : Stored db)
    (hends : Ends (Serve latest) db (runOnce cfg completedAt) h x db') :
    (∃ job ∈ claimed watchdogType h, DoomedJob cfg db job) ∧ (∃ e, x = .error e) ∨
      (∀ job ∈ claimed watchdogType h, ¬DoomedJob cfg db job) ∧
        ((∀ job ∈ claimed reviewType h, job.attemptCount ≤ 1024) → Orderly cfg db h x db') := by
  have htext : encodable watchdogType = true := by decide
  have htypes : watchdogType ≠ reviewType := by decide
  rcases ends_bind.1 hends with ⟨live, h₁, t₁, db, rfl, hlive, hrest₁⟩ | ⟨e, hlive, -⟩
  case inr =>
    obtain ⟨_, -, hreply, -⟩ := ends_perform.1 hlive
    cases hreply
  obtain ⟨_, rfl, hreply, rfl⟩ := ends_perform.1 hlive
  cases hreply
  cases live with
  | true =>
    obtain ⟨rfl, rfl, rfl⟩ := ends_pure.1 hrest₁
    refine .inr ⟨fun job hjob => absurd hjob List.not_mem_nil, fun _ => ⟨⟨[], rfl⟩, ?_, ?_, ?_⟩⟩
    · exact fun job hjob => absurd hjob List.not_mem_nil
    · exact fun job hjob => absurd hjob List.not_mem_nil
    · exact fun job hjob => absurd hjob List.not_mem_nil
  | false =>
    rcases ends_bind.1 hrest₁ with ⟨watchdogs, h₂, t₂, m₂, rfl, hclaim, hrest₂⟩ | ⟨e, hclaim, -⟩
    case inr =>
      obtain ⟨r, -, hr, hserve⟩ := (ends_raising_perform (Op.claimJobs ..) rfl).1 hclaim
      obtain ⟨_, _, rfl, -⟩ := serve_claimJobs hgranted htext hgranted.watchdogLease hserve
      cases hr
    obtain ⟨r, rfl, hr, hserve⟩ := (ends_raising_perform (Op.claimJobs ..) rfl).1 hclaim
    obtain ⟨_, ledger, rfl, rfl, hleased, hnodup, -⟩ :=
      serve_claimJobs hgranted htext hgranted.watchdogLease hserve
    cases hr
    have hstored₂ : Stored { db with jobs := ledger } := ends_stored hclaim hstored
    have hdoomed (job : DurableJob) :
        DoomedJob cfg { db with jobs := ledger } job ↔ DoomedJob cfg db job :=
      exists_congr fun k => and_congr_right fun _ => doomed_congr rfl rfl rfl
    have hclaimed (rest : History Op.Reply) (hnone : claimed watchdogType rest = []) :
        claimed watchdogType ([⟨.hasRecentLiveInput, false⟩] ++
          ([⟨.claimJobs watchdogType cfg.workerId cfg.batchSize (.micros 60000000),
            .ok watchdogs⟩] ++ rest)) = watchdogs ∧
        claimed reviewType ([⟨.hasRecentLiveInput, false⟩] ++
          ([⟨.claimJobs watchdogType cfg.workerId cfg.batchSize (.micros 60000000),
            .ok watchdogs⟩] ++ rest)) = claimed reviewType rest := by
      simp only [claimed_append, hnone]
      simp [claimed, htypes]
    rcases ends_bind.1 hrest₂ with ⟨cleared, h₃, t₃, m₃, rfl, hcleared, hrest₃⟩ | ⟨e, hfailed, rfl⟩
    case inr =>
      rcases runWatchdogs_ends hgranted hstored₂ hleased hnodup hfailed with
        ⟨⟨job, hjob, hdoom⟩, -⟩ | ⟨-, ⟨_, hx⟩, -⟩
      · rw [(hclaimed _ (claimed_eq_nil (runWatchdogs_unclaiming _) hfailed.1 _)).1]
        exact .inl ⟨⟨job, hjob, (hdoomed job).1 hdoom⟩, e, rfl⟩
      · cases hx
    rcases runWatchdogs_ends hgranted hstored₂ hleased hnodup hcleared with ⟨-, e, hx⟩ |
      ⟨hnone, -, hhandles⟩
    · cases hx
    have hstored₃ : Stored m₃ := ends_stored hcleared hstored₂
    have hunclaimed := claimed_eq_nil (runWatchdogs_unclaiming _) hcleared.1
    obtain ⟨hwatchdogs, hreviews⟩ := reviewStage_ends hgranted hstored₃ cleared hrest₃
    have hrest : claimed watchdogType (h₃ ++ t₃) = [] := by
      rw [claimed_append, hunclaimed, hwatchdogs]
      rfl
    have hreview : claimed reviewType (h₃ ++ t₃) = claimed reviewType t₃ := by
      rw [claimed_append, hunclaimed]
      rfl
    have hcalm : ∀ job ∈ watchdogs, ¬DoomedJob cfg db job :=
      fun job hjob hdoom => hnone job hjob ((hdoomed job).2 hdoom)
    refine .inr ⟨by rw [(hclaimed _ hrest).1]; exact hcalm, fun hattempts => ?_⟩
    rw [(hclaimed _ hrest).2, hreview] at hattempts
    obtain ⟨hok, hsettled, hkept, htickets⟩ := hreviews hattempts
    refine ⟨hok, fun job hjob => ?_, fun job hjob id t hid ht => ?_, ?_⟩
    · rw [(hclaimed _ hrest).1] at hjob
      obtain ⟨r, hr, hstatus⟩ := hhandles.own job hjob
      have hcompleted : r.status = .completed := by simpa using hstatus
      exact ⟨r, hkept _ r hr hcompleted, hcompleted⟩
    · obtain ⟨t₁, ht₁, hmoves₁⟩ := hhandles.tickets id t ht
      obtain ⟨t₂, ht₂, hmoves₂⟩ := htickets id t₁ ht₁
      exact ⟨t₂, ht₂, allows_of_moves (hmoves₁.trans hmoves₂)⟩
    · rw [(hclaimed _ hrest).2, hreview]
      exact hsettled

end Rounds

section Total

theorem exists_length_lt (used : List Str) : ∃ n, ∀ s ∈ used, s.length < n := by
  induction used with
  | nil => exact ⟨0, fun s hs => absurd hs List.not_mem_nil⟩
  | cons s rest ih =>
    obtain ⟨n, hn⟩ := ih
    refine ⟨max (s.length + 1) n, fun t ht => ?_⟩
    rcases List.mem_cons.1 ht with rfl | ht
    · omega
    · have hlt := hn t ht
      omega

/-- A text that is longer than every identifier is new. -/
theorem exists_fresh (db : TicketDb) : ∃ id, Fresh db id := by
  obtain ⟨n, hn⟩ := exists_length_lt (db.tickets.rows.map Ticket.ticketId ++
    db.entries.rows.map TicketEntry.entryId ++ db.expectations.rows.map Expectation.expectationId ++
    db.reviews.rows.map ReviewRun.reviewRunId ++ db.jobs.jobs.rows.map DurableJob.jobId)
  let id : Str := List.replicate n 0x61
  have hid : id.length = n := List.length_replicate
  have hne {s : Str} (hs : s.length < n) : s ≠ id := by
    rintro rfl
    omega
  simp only [List.mem_append, List.mem_map] at hn
  refine ⟨id, ?_, ?_, ?_, ?_, ?_, ?_⟩
  · rw [encodable, List.all_eq_true]
    intro c hc
    rw [List.eq_of_mem_replicate hc]
    decide
  · exact Table.find?_eq_none.2 fun t ht => hne (hn _ (.inl (.inl (.inl (.inl ⟨t, ht, rfl⟩)))))
  · exact fun e he => hne (hn _ (.inl (.inl (.inl (.inr ⟨e, he, rfl⟩)))))
  · exact fun e he => hne (hn _ (.inl (.inl (.inr ⟨e, he, rfl⟩))))
  · exact Table.find?_eq_none.2 fun r hr => hne (hn _ (.inl (.inr ⟨r, hr, rfl⟩)))
  · exact Table.find?_eq_none.2 fun j hj => hne (hn _ (.inr ⟨j, hj, rfl⟩))

variable [PythonText] {latest : Instant}

omit [PythonText] in
theorem commits_total {α : Type} (t : Instant → Transaction TicketDb α) (db : TicketDb) :
    ∃ r db', ∃ now ≤ latest, Commits (t now) db r db' :=
  ⟨_, _, latest, le_rfl, rfl, rfl⟩

/-- Every request is served. -/
theorem serve_total (db : TicketDb) (op : Op) (sample : op.Reply) :
    ∃ r db', Serve latest db op r db' := by
  cases op with
  | newId =>
    obtain ⟨id, hid⟩ := exists_fresh db
    exact ⟨id, db, rfl, hid⟩
  | createTicket a => exact commits_total (createBound a) db
  | transitionTicket a => exact commits_total (transitionTicket a) db
  | appendEntry a => exact commits_total (appendEntry a) db
  | reserve a => exact commits_total (reserve a) db
  | recordChildOutcome a => exact commits_total (recordChildOutcomeAtomic a) db
  | recordOperationCompletion a => exact commits_total (recordOperationCompletionAtomic a) db
  | scheduleVerification a => exact commits_total (scheduleVerification a) db
  | startReviewRun a => exact commits_total (startReviewRun a) db
  | completeReviewRun a => exact commits_total (completeReviewRun a) db
  | enqueueJob a => exact commits_total (fun now => onJobs (enqueueJob a now)) db
  | claimJobs jobType workerId limit leaseSeconds =>
    exact commits_total (fun now => onJobs (claimJobs jobType workerId limit leaseSeconds now)) db
  | completeJob jobId workerId =>
    exact commits_total (fun now => onJobs (completeJob jobId workerId none now)) db
  | retryJob jobId workerId errorCode delaySeconds =>
    exact commits_total
      (fun now => onJobs (retryJob jobId workerId errorCode delaySeconds none now)) db
  | observe | buildContext | review | executeRemediation | hasRecentLiveInput =>
    exact ⟨sample, db, rfl⟩
  | _ => exact ⟨_, db, rfl, rfl⟩

/-- Every program has a run. -/
theorem ends_total {α : Type} (samples : ∀ op : Op, op.Reply) (p : Process α) (db : TicketDb) :
    ∃ h x db', Ends (Serve latest) db p h x db' := by
  induction p generalizing db with
  | pure a => exact ⟨[], .ok a, db, ⟨rfl, rfl⟩, rfl⟩
  | raise e => exact ⟨[], .error e, db, ⟨rfl, rfl⟩, rfl⟩
  | request op next ih =>
    have hreply : ∃ r m, Serve latest db op r m := serve_total db op (samples op)
    obtain ⟨r, m, hserve⟩ := hreply
    obtain ⟨h, x, db', hruns, hserved⟩ := ih r m
    exact ⟨⟨op, r⟩ :: h, x, db', ⟨r, h, rfl, hruns⟩, m, hserve, hserved⟩

end Total

section Samples

/-- A day in microseconds before the end of the calendar leaves room for every delay. -/
theorem add_room {latest now : Instant} (hnow : now ≤ latest) {n : Int} (hn : 0 ≤ n)
    (hroom : (latest.val : Int) + n < maxMicros) : ∃ t, Instant.add now (.micros n) = .ok t := by
  have hle : now.val ≤ latest.val := hnow
  have hbound : 0 ≤ (now.val : Int) + n ∧ (now.val : Int) + n < maxMicros := by omega
  exact ⟨_, dif_pos hbound⟩

def watchdogPayload : Fields :=
  [("ticket_id", .str "t1"), ("child_operation_id", .str "effect-1")]

/-- A worker on a ledger whose jobs all have one payload. -/
def roundConfig : ReviewConfig := { sampleConfig with payload := fun _ => watchdogPayload }

theorem roundConfig_granted : @Granted asciiText roundConfig sampleInstant := by
  have hroom : (sampleInstant.val : Int) + 300000000 < maxMicros := by decide
  have hnan : isAscii (text "nan") = true := by decide
  refine @Granted.mk asciiText _ _ (fun _ => hnan) (fun _ => ?_) (by decide) (by decide)
    (fun now hnow => add_room hnow (by decide) (by decide))
    (fun now hnow => add_room hnow (by decide) (by decide))
    (fun now hnow => add_room hnow (by decide) (by decide))
    (fun now hnow n hlow hhigh => add_room hnow hlow (by omega))
  show hasLongIntFields watchdogPayload = false
  decide +kernel

def zeroHash : Str := List.replicate 64 0x30

/-- The manifest of a single effect. -/
def singleManifest : ExecutionManifest where
  parentOperationId := "operation-1"
  authorizationBindingHash := zeroHash
  effectCardinality := .single
  skillId := "skill.lists.core"
  toolId := "lists.add_item"
  contractVersion := 1
  descriptorHash := zeroHash
  resourceVersion := 1
  parentArgumentsHash := zeroHash
  children := [⟨"effect-1", 0, zeroHash, zeroHash⟩]
  recoveryManifestHash := none
  sensitivity := .normal
  persistence := .standard

def singleManifestHash [PythonText] : Str :=
  (contentHash (.obj singleManifest.fields)).toOption.getD []

/-- The effect is denied before the ticket has begun to execute. -/
def deniedCalls [PythonText] : List Call :=
  [.createTicket sampleTicket sampleInstant,
    .reserveExecutionManifest
      { entryId := "entry-1", ticketId := "t1", requestId := "r1"
        manifest := singleManifest.fields, manifestHash := singleManifestHash } sampleInstant,
    .recordChildOutcome
      { ticketId := "t1", requestId := "r1"
        outcome :=
          { parentOperationId := "operation-1", parentManifestHash := singleManifestHash
            childOperationId := "effect-1", childIndex := 0, effectState := "denied"
            reasonCode := some (text "authorization_denied"), receiptHash := none }
        receipt := none, expectationId := "x1", receiptEntryId := "entry-2"
        entryId := "entry-3", jobId := "watchdog-1" } sampleInstant]

/-- What one run of the calls shows: the ticket is as it was captured, its effect has failed, and
the watchdog is there to be claimed. -/
theorem deniedCalls_checked :
    ((@dbAfter asciiText (@deniedCalls asciiText)).tickets.find? (text "t1")).map Ticket.status =
        some .captured ∧
      (@dbAfter asciiText (@deniedCalls asciiText)).listExecutionManifests (text "t1") ≠ [] ∧
      (@reduceTicketEffects asciiText (@dbAfter asciiText (@deniedCalls asciiText))
        (text "t1")).toOption.map EffectAggregate.status = some .failed ∧
      ((onJobs (claimJobs watchdogType roundConfig.workerId roundConfig.batchSize
          (.micros 60000000) sampleInstant)).reply
        (@dbAfter asciiText (@deniedCalls asciiText))).toOption.map List.length = some 1 := by
  decide +kernel

theorem deniedCalls_doomed : @Doomed asciiText (@dbAfter asciiText (@deniedCalls asciiText)) "t1" := by
  obtain ⟨hstatus, hmanifests, hreduced, -⟩ := deniedCalls_checked
  obtain ⟨t, ht, hcaptured⟩ := Option.map_eq_some_iff.1 hstatus
  obtain ⟨a, ha, hfailed⟩ := Option.map_eq_some_iff.1 hreduced
  refine ⟨t, a, ht, hcaptured, hmanifests, ?_, hfailed⟩
  cases hreduce : @reduceTicketEffects asciiText (@dbAfter asciiText (@deniedCalls asciiText))
    (text "t1") with
  | error e =>
    rw [hreduce] at ha
    cases ha
  | ok b =>
    rw [hreduce] at ha
    cases ha
    rfl

theorem commits_claim_empty {db : TicketDb} (hjobs : db.jobs = .empty) {jobType : Str}
    (htype : bindParameters [.text jobType] = .ok ()) :
    Commits (onJobs (claimJobs jobType roundConfig.workerId roundConfig.batchSize
      (.micros 60000000) sampleInstant)) db (.ok []) db := by
  obtain ⟨leaseEnd, hlease⟩ : ∃ t, Instant.add sampleInstant (.micros 60000000) = .ok t :=
    add_room (le_refl sampleInstant) (by decide) (by decide)
  have hclaim : claimJobs jobType roundConfig.workerId roundConfig.batchSize (.micros 60000000)
      sampleInstant .empty = .ok ([], .empty) := by
    simp only [claimJobs, bind_eq_ok]
    exact ⟨leaseEnd, hlease, (), htype, (), rfl, rfl⟩
  have hrun : onJobs (claimJobs jobType roundConfig.workerId roundConfig.batchSize
      (.micros 60000000) sampleInstant) db = .ok ([], db) := by
    rw [onJobs, hjobs, hclaim, ← hjobs]
    rfl
  refine ⟨?_, Transaction.commit_of_ok hrun⟩
  rw [Transaction.reply, hrun]
  rfl

/-- A round that finds nothing to claim. -/
def idleTrace : History Op.Reply :=
  [⟨.hasRecentLiveInput, false⟩,
    ⟨.claimJobs watchdogType roundConfig.workerId roundConfig.batchSize (.micros 60000000), .ok []⟩,
    ⟨.claimJobs reviewType roundConfig.workerId roundConfig.batchSize roundConfig.leaseSeconds,
      .ok []⟩]

end Samples

end HardyAI.Tickets
