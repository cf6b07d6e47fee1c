import HardyAI.Tickets.CaughtErrors
import HardyAI.Tickets.ServedRequests

/-! The reviews of a round: each job that the worker has claimed is completed, retried or
dead-lettered. -/

open Foundation Foundation.Json Foundation.Program HardyAI.Jobs Relation

namespace HardyAI.Tickets

section Steady

variable {h : History Op.Reply} (cfg : ReviewConfig)

def Steady (_ : History Op.Reply) (op : Op) : Prop := op.steady = true

theorem safe_steady {op : Op} (hop : op.steady = true) : Safe Steady h (ask op) := safe_perform hop

theorem steady_safe {α : Type} {p : Process α} (hp : Safe Quiet h p) : Safe Steady h p :=
  hp.mono fun _ _ => steady_of_quiet

theorem observeAll_steady (receipts : List ReceiptRow) (es : List Expectation) :
    Safe Steady h (observeAll receipts es) := by
  induction es generalizing h with
  | nil => exact safe_pure
  | cons e es ih =>
    refine Safe.bind ?_ fun _ o _ => Safe.bind ih fun _ _ _ => safe_pure
    refine Safe.bind (safe_steady rfl) fun _ reply _ => ?_
    cases reply with
    | none => exact Safe.bind (safe_steady rfl) fun _ _ _ => safe_pure
    | some o => exact safe_ofExcept

theorem settleTransition_steady (ticketId : Str) (verdict : ReviewVerdict) (reason : Str) :
    (Op.transitionTicket (settleTransition ticketId verdict reason)).steady = true := by
  cases verdict with
  | incorrect =>
    by_cases hcap : reason = text "remediation_generation_cap_reached"
    · simp [Op.steady, settleTransition, hcap]
    · simp [Op.steady, settleTransition, hcap]
  | _ => rfl

theorem finishReview_steady (ticketId : Str) (decision : ReviewDecision) (reason : Str) :
    Safe Steady h (finishReview cfg ticketId decision reason) := by
  refine Safe.bind (safe_steady (settleTransition_steady ..)).raising fun _ _ _ => ?_
  exact Safe.bind (steady_safe (enqueuePlane_quiet ..)) fun _ _ _ => safe_pure

variable [PythonText]

theorem remediate_steady (parent : Ticket) (repair : ReviewRepair) (completedAt : Str) :
    Safe Steady h (remediate cfg parent repair completedAt) := by
  have hrun (h : History Op.Reply) (requestId : Str) (existing : Option Ticket)
      (receipts : List ReceiptRow) : Safe Steady h
      (if receipts ≠ [] then Pure.pure existing else do
        let child ← childTicket parent repair requestId existing
        runRemediation cfg parent repair requestId completedAt child) := by
    refine Safe.ite safe_pure (Safe.bind (steady_safe (childTicket_quiet ..)) fun _ _ _ => ?_)
    exact steady_safe (runRemediation_quiet ..)
  refine Safe.bind safe_ofExcept fun _ entitiesHash _ => ?_
  refine Safe.bind (safe_steady rfl) fun _ existing _ => ?_
  cases existing with
  | none => exact Safe.bind safe_pure fun _ receipts _ => hrun ..
  | some child => exact Safe.bind (safe_steady rfl) fun _ receipts _ => hrun ..

theorem settleReview_steady (ticket : Ticket) (completedAt : Str)
    (expectations : List Expectation) (decision : ReviewDecision) :
    Safe Steady h (settleReview cfg ticket completedAt expectations decision) := by
  unfold settleReview
  split
  case h_4 =>
    refine Safe.bind safe_ofExcept fun _ policy _ => ?_
    split
    · refine Safe.ite ?_ (finishReview_steady ..)
      refine Safe.bind (remediate_steady ..) fun _ child _ => ?_
      refine Safe.bind (safe_steady rfl) fun _ updated _ => ?_
      refine Safe.bind (steady_safe (enqueuePlane_quiet ..)) fun _ _ _ => ?_
      cases child with
      | none => exact Safe.bind safe_pure fun _ _ _ => safe_pure
      | some child =>
        exact Safe.bind (steady_safe (enqueuePlane_quiet ..)) fun _ _ _ => safe_pure
    · exact finishReview_steady ..
  all_goals exact finishReview_steady ..

theorem conductReview_steady (ticket : Ticket) (reviewRunId completedAt : Str) :
    Safe Steady h (conductReview cfg ticket reviewRunId completedAt) := by
  refine Safe.bind (safe_steady rfl) fun _ expectations _ => ?_
  refine Safe.bind (safe_steady rfl) fun _ receipts _ => ?_
  refine Safe.bind (observeAll_steady ..) fun _ observations _ => ?_
  refine Safe.bind (safe_steady rfl) fun _ later _ => ?_
  refine Safe.bind (safe_steady rfl).raising fun _ contextHash _ => ?_
  refine Safe.bind (safe_steady rfl).raising fun _ model _ => ?_
  refine Safe.bind (steady_safe (recordReview_quiet ..)) fun _ _ _ => ?_
  exact settleReview_steady ..

/-- A review takes no ticket back and leaves the leases of jobs alone. -/
theorem processJob_steady (job : DurableJob) (completedAt : Str) :
    Safe Steady h (processJob cfg job completedAt) := by
  refine Safe.bind safe_ofExcept fun _ ticketId _ => ?_
  refine Safe.bind safe_ofExcept fun _ revision _ => ?_
  refine Safe.bind (safe_steady rfl) fun _ found _ => ?_
  cases found with
  | none => exact safe_pure
  | some ticket =>
    refine Safe.ite safe_pure (Safe.ite safe_pure ?_)
    refine Safe.bind (safe_steady rfl) fun _ reviewRunId _ => ?_
    refine Safe.bind (safe_steady rfl).raising fun _ run _ => ?_
    refine Safe.bind (safe_steady rfl).raising fun _ _ _ => ?_
    refine Safe.handle (conductReview_steady ..) fun _ e _ => ?_
    refine Safe.bind (safe_steady rfl).raising fun _ _ _ => ?_
    exact Safe.bind (safe_steady rfl).raising fun _ _ _ => safe_raise

end Steady

section Granted

variable [PythonText]

/-- What the worker's surroundings grant it, apart from the state: the `repr` of a float is ASCII,
`json.loads` reads no integer that is too long, and neither the settings nor the clock overflow. -/
structure Granted (cfg : ReviewConfig) (latest : Instant) : Prop where
  float : ∀ bits, isAscii (PythonText.floatRepr bits) = true
  payload : ∀ job, (Json.obj (cfg.payload job)).hasLongInt = false
  worker : encodable cfg.workerId = true
  attempts : max 1 cfg.reviewMaxAttempts < 2 ^ 63
  watchdogLease : ∀ now ≤ latest, ∃ t, Instant.add now ((Seconds.micros 60000000).atLeast 1000000) =
    .ok t
  lease : ∀ now ≤ latest, ∃ t, Instant.add now (cfg.leaseSeconds.atLeast 1000000) = .ok t
  delay : ∀ now ≤ latest, ∃ t, Instant.add now (cfg.reviewDelaySeconds.atLeast 0) = .ok t
  retry : ∀ now ≤ latest, ∀ n : Int, 0 ≤ n → n ≤ 300000000 →
    ∃ t, Instant.add now (.micros n) = .ok t

omit [PythonText] in
theorem hasLongInt_of_lookup {fields : Fields} {key : Str} {v : Json}
    (h : (Json.obj fields).hasLongInt = false) (hv : lookup fields key = some v) :
    v.hasLongInt = false := by
  obtain ⟨p, hp, rfl⟩ := Option.map_eq_some_iff.1 hv
  have hmem := List.mem_of_find?_eq_some hp
  have hfields : hasLongIntFields fields = false := h
  clear hp hv h
  induction fields with
  | nil => cases hmem
  | cons q rest ih =>
    rw [hasLongIntFields, Bool.or_eq_false_iff] at hfields
    rcases List.mem_cons.1 hmem with rfl | hrest
    · exact hfields.1
    · exact ih hrest hfields.2

theorem textOr_ok {value : Option Json} (default : Str)
    (h : ∀ v, value = some v → v.hasLongInt = false) : ∃ s, textOr value default = .ok s := by
  cases value with
  | none => exact ⟨default, rfl⟩
  | some v =>
    have hshort := h v rfl
    rw [textOr]
    split
    · cases v with
      | bool b => cases b <;> exact ⟨_, rfl⟩
      | int n => exact ⟨_, by rw [pyStr, hshort]; rfl⟩
      | arr items => exact ⟨_, by rw [pyStr, hshort]; rfl⟩
      | obj fields => exact ⟨_, by rw [pyStr, hshort]; rfl⟩
      | _ => exact ⟨_, rfl⟩
    · exact ⟨default, rfl⟩

variable {cfg : ReviewConfig} {latest : Instant}

theorem Granted.textOr (hgranted : Granted cfg latest) (job : DurableJob) (key default : Str) :
    ∃ s, textOr (lookup (cfg.payload job) key) default = .ok s :=
  textOr_ok default fun _ hv => hasLongInt_of_lookup (hgranted.payload job) hv

/-- The ticket that a job names. -/
theorem Granted.ticketId (hgranted : Granted cfg latest) (job : DurableJob) :
    ∃ id, jobTicketId cfg job = .ok id := hgranted.textOr job ..

omit [PythonText] in
/-- The retry of a job that has not been tried too often. -/
theorem retryDelay_ok {attemptCount : Int} (h : attemptCount ≤ 1024) :
    ∃ n : Int, retryDelay attemptCount = .ok (.micros n) ∧ 0 ≤ n ∧ n ≤ 300000000 := by
  have hbound : (max 0 ((if attemptCount = 0 then 1 else attemptCount) - 1)).toNat < 1024 := by
    split <;> omega
  rw [retryDelay, if_neg (by omega)]
  generalize (max 0 ((if attemptCount = 0 then 1 else attemptCount) - 1)).toNat = k
  refine ⟨_, rfl, ?_, ?_⟩
  · have hpow : (0 : Int) ≤ min 300 (2 ^ k) := le_min (by omega) (Int.pow_nonneg (by omega))
    omega
  · have hmin : min (300 : Int) (2 ^ k) ≤ 300 := min_le_left ..
    omega

end Granted

section Leases

/-- The worker holds the job as it was claimed. -/
structure Leased (cfg : ReviewConfig) (db : TicketDb) (job : DurableJob) : Prop where
  row : db.jobs.find? job.jobId = some job
  running : job.status = .running
  owner : job.leaseOwner = some cfg.workerId
  uncancelled : job.cancelRequestedAt = none

/-- The rows of these jobs have ended in one of the statuses, the other rows are kept, and tickets
move on. -/
structure Handles (ends : List JobStatus) (jobs : List DurableJob) (db db' : TicketDb) :
    Prop where
  own : ∀ job ∈ jobs, ∃ r, db'.jobs.find? job.jobId = some r ∧ r.status ∈ ends
  others : ∀ j r, j ∉ jobs.map DurableJob.jobId → db.jobs.find? j = some r →
    db'.jobs.find? j = some r
  tickets : ∀ id t, db.tickets.find? id = some t → ∃ t', db'.tickets.find? id = some t' ∧
    ReflTransGen TicketStatus.Moves t.status t'.status

variable {cfg : ReviewConfig} {latest : Instant} {db m db' : TicketDb} {job : DurableJob}
  {jobs : List DurableJob} {ends : List JobStatus}

theorem Leased.of_find? (h : Leased cfg db job) (hrow : db'.jobs.find? job.jobId = some job) :
    Leased cfg db' job :=
  ⟨hrow, h.running, h.owner, h.uncancelled⟩

theorem Leased.advances (h : Leased cfg db job) (hadvances : Advances db db') :
    Leased cfg db' job := h.of_find? (hadvances.jobs _ _ h.row)

theorem handles_nil : Handles ends [] db db :=
  ⟨fun _ h => absurd h List.not_mem_nil, fun _ _ _ h => h, fun _ t h => ⟨t, h, .refl⟩⟩

theorem Handles.cons (hfirst : Handles ends [job] db m) (hrest : Handles ends jobs m db')
    (hfresh : job.jobId ∉ jobs.map DurableJob.jobId) : Handles ends (job :: jobs) db db' := by
  refine ⟨fun j hj => ?_, fun j r hj hr => ?_, fun id t ht => ?_⟩
  · rcases List.mem_cons.1 hj with rfl | hj
    · obtain ⟨r, hr, hstatus⟩ := hfirst.own j List.mem_cons_self
      exact ⟨r, hrest.others _ _ hfresh hr, hstatus⟩
    · exact hrest.own j hj
  · rw [List.map_cons, List.mem_cons, not_or] at hj
    exact hrest.others j r hj.2 (hfirst.others j r (by simpa using hj.1) hr)
  · obtain ⟨t₁, ht₁, hmoves₁⟩ := hfirst.tickets id t ht
    obtain ⟨t₂, ht₂, hmoves₂⟩ := hrest.tickets id t₁ ht₁
    exact ⟨t₂, ht₂, hmoves₁.trans hmoves₂⟩

/-- Where only the row of the job changes, after what came before. -/
theorem Handles.of_update {row : DurableJob} {jobs : JobLedger} (hadvances : Advances db m)
    (hown : jobs.find? job.jobId = some row) (hstatus : row.status ∈ ends)
    (hothers : ∀ j ≠ job.jobId, jobs.find? j = m.jobs.find? j) :
    Handles ends [job] db { m with jobs } := by
  refine ⟨fun j hj => ?_, fun j r hj hr => ?_, hadvances.tickets⟩
  · rw [List.mem_singleton.1 hj]
    exact ⟨row, hown, hstatus⟩
  · have hne : j ≠ job.jobId := by simpa using hj
    exact (hothers j hne).trans (hadvances.jobs j r hr)

theorem Handles.advances (h : Handles ends jobs db m) (hadvances : Advances m db') :
    Handles ends jobs db db' := by
  refine ⟨fun job hjob => ?_, fun j r hj hr => hadvances.jobs j r (h.others j r hj hr), ?_⟩
  · obtain ⟨r, hr, hstatus⟩ := h.own job hjob
    exact ⟨r, hadvances.jobs _ r hr, hstatus⟩
  · intro id t ht
    obtain ⟨t₁, ht₁, hmoves₁⟩ := h.tickets id t ht
    obtain ⟨t₂, ht₂, hmoves₂⟩ := hadvances.tickets id t₁ ht₁
    exact ⟨t₂, ht₂, hmoves₁.trans hmoves₂⟩

theorem Advances.handles (hadvances : Advances db m) (h : Handles ends jobs m db') :
    Handles ends jobs db db' := by
  refine ⟨h.own, fun j r hj hr => h.others j r hj (hadvances.jobs j r hr), fun id t ht => ?_⟩
  obtain ⟨t₁, ht₁, hmoves₁⟩ := hadvances.tickets id t ht
  obtain ⟨t₂, ht₂, hmoves₂⟩ := h.tickets id t₁ ht₁
  exact ⟨t₂, ht₂, hmoves₁.trans hmoves₂⟩

variable [PythonText]

omit [PythonText] in
theorem leaseParameters_ok (hjob : encodable job.jobId = true)
    (hworker : encodable cfg.workerId = true) :
    bindParameters (leaseParameters job.jobId cfg.workerId none) = .ok () := by
  refine bindParameters_ok fun p hp => ?_
  simp only [leaseParameters, List.mem_cons, List.not_mem_nil, or_false] at hp
  rcases hp with rfl | rfl | rfl
  · exact error?_text hjob
  · exact error?_text hworker
  · rfl

/-- The completion of a job that the worker holds. -/
theorem serve_completeJob (hgranted : Granted cfg latest) (hstored : Stored m)
    (hleased : Leased cfg m job) {r : Except PyError Bool}
    (hserve : Serve latest m (.completeJob job.jobId cfg.workerId) r db') :
    r = .ok true ∧ ∃ row jobs, db' = { m with jobs } ∧ jobs.find? job.jobId = some row ∧
      row.status = .completed ∧ ∀ j ≠ job.jobId, jobs.find? j = m.jobs.find? j := by
  obtain ⟨now, -, hcommits⟩ := hserve
  let guard (r : DurableJob) : Bool := r.status = .running && r.cancelRequestedAt.isNone &&
    r.leasedBy cfg.workerId none
  have hguard : guard job = true := by
    have hheld : job.leasedBy cfg.workerId none = true :=
      DurableJob.leasedBy_iff.2 ⟨hleased.owner, by simp⟩
    simp [guard, hleased.running, hleased.uncancelled, hheld]
  have hupdated : (m.jobs.updateJob job.jobId guard (.complete (isoUtc now))).1 = true :=
    JobLedger.updateJob_fst.2 ⟨job, hleased.row, hguard⟩
  have hrun : onJobs (completeJob job.jobId cfg.workerId none now) m = .ok (true, { m with
      jobs := (m.jobs.updateJob job.jobId guard (.complete (isoUtc now))).2 }) := by
    rw [← hupdated, onJobs, completeJob,
      leaseParameters_ok (hstored.jobs _ _ hleased.row).id hgranted.worker]
    rfl
  obtain ⟨rfl, rfl⟩ := hcommits.ok hrun
  exact ⟨rfl, (JobAssignment.complete (isoUtc now)).apply job, _, rfl,
    JobLedger.find?_updateJob_self hleased.row hguard, rfl,
    fun j hj => JobLedger.find?_updateJob_of_ne hj⟩

/-- The retry of a job that the worker holds. -/
theorem serve_retryJob (hgranted : Granted cfg latest) (hstored : Stored m)
    (hleased : Leased cfg m job) {code : Str} {n : Int} (hcode : encodable code = true)
    (hlow : 0 ≤ n) (hhigh : n ≤ 300000000) {r : Except PyError Bool}
    (hserve : Serve latest m (.retryJob job.jobId cfg.workerId code (.micros n)) r db') :
    r = .ok true ∧ ∃ row jobs, db' = { m with jobs } ∧ jobs.find? job.jobId = some row ∧
      row.status = job.releasedStatus ∧ ∀ j ≠ job.jobId, jobs.find? j = m.jobs.find? j := by
  obtain ⟨now, hnow, hcommits⟩ := hserve
  have hheld : job.leasedBy cfg.workerId none = true :=
    DurableJob.leasedBy_iff.2 ⟨hleased.owner, by simp⟩
  have hmax : max 0 n = n := max_eq_right hlow
  obtain ⟨availableAt, havailable⟩ := hgranted.retry now hnow n hlow hhigh
  have hcode' : bindParameters [.text (code.take 120)] = .ok () := by
    refine bindParameters_ok fun p hp => ?_
    rw [List.mem_singleton.1 hp]
    refine error?_text ?_
    rw [encodable, List.all_eq_true] at hcode ⊢
    exact fun c hc => hcode c (List.mem_of_mem_take hc)
  let assignment := JobAssignment.retryAs job (isoUtc availableAt) (code.take 120) (isoUtc now)
  have hupdated : (m.jobs.updateJob job.jobId (·.leasedBy cfg.workerId none) assignment).1 = true :=
    JobLedger.updateJob_fst.2 ⟨job, hleased.row, hheld⟩
  have hrun : onJobs (retryJob job.jobId cfg.workerId code (.micros n) none now) m =
      .ok (true, { m with
        jobs := (m.jobs.updateJob job.jobId (·.leasedBy cfg.workerId none) assignment).2 }) := by
    have hretry : retryJob job.jobId cfg.workerId code (.micros n) none now m.jobs =
        .ok (m.jobs.updateJob job.jobId (·.leasedBy cfg.workerId none) assignment) := by
      have hread : (m.jobs.find? job.jobId).filter (·.leasedBy cfg.workerId none) = some job := by
        rw [hleased.row]
        simp [Option.filter, hheld]
      rw [retryJob, leaseParameters_ok (hstored.jobs _ _ hleased.row).id hgranted.worker, hread]
      simp only [Seconds.atLeast, hmax]
      rw [havailable, hcode']
      rfl
    rw [onJobs, hretry, ← hupdated]
    rfl
  obtain ⟨rfl, rfl⟩ := hcommits.ok hrun
  exact ⟨rfl, assignment.apply job, _, rfl, JobLedger.find?_updateJob_self hleased.row hheld, rfl,
    fun j hj => JobLedger.find?_updateJob_of_ne hj⟩

end Leases

section Reviews

variable {cfg : ReviewConfig} {latest : Instant} {m db' : TicketDb} {job : DurableJob}
  {h : History Op.Reply}

/-- A ticket that the database has, past the start of its execution. -/
def Late (db : TicketDb) (id : Str) : Prop :=
  ∃ t, db.tickets.find? id = some t ∧ t.status ≠ .captured ∧ t.status ≠ .waitingClarification

theorem Late.advances {id : Str} (hlate : Late m id) (hadvances : Advances m db') :
    Late db' id := by
  obtain ⟨t, ht, hstatus⟩ := hlate
  obtain ⟨t', ht', hmoves⟩ := hadvances.tickets id t ht
  exact ⟨t', ht', moves_late hmoves hstatus⟩

theorem allows_escalated {s : TicketStatus} (hcaptured : s ≠ .captured)
    (hwaiting : s ≠ .waitingClarification) : .escalated = s ∨ s.Allows .escalated := by
  cases s <;> first | contradiction | decide

theorem encodable_className (e : PyError) : encodable (text e.className) = true := by
  cases e <;> simp only [PyError.className] <;> decide

theorem encodable_statusValue (s : TicketStatus) : encodable (text s.value) = true := by
  cases s <;> decide

variable [PythonText]

/-- A transition that the table allows. -/
theorem serve_transitionTicket {a : TransitionArgs} {t : Ticket}
    (hversion : a.expectedVersion = none) (ht : m.tickets.find? a.ticketId = some t)
    (hallowed : a.status = t.status ∨ t.status.Allows a.status)
    {r : Except PyError (Option Ticket)} (hserve : Serve latest m (.transitionTicket a) r db') :
    ∃ now, r = .ok (some ((transitioned a now).apply t)) ∧
      db' = m.updateTicket a.ticketId (transitioned a now) := by
  obtain ⟨now, -, hcommits⟩ := hserve
  have hguard : (decide (a.status = t.status) || decide (t.status.Allows a.status)) = true := by
    rcases hallowed with hsame | hallows
    · simp [hsame]
    · simp [hallows]
  have hrun : transitionTicket a now m = .ok (some ((transitioned a now).apply t),
      m.updateTicket a.ticketId (transitioned a now)) := by
    simp only [transitionTicket, ht, hguard, hversion, require, if_true, Option.all_none]
    rfl
  obtain ⟨rfl, rfl⟩ := hcommits.ok hrun
  exact ⟨now, rfl, rfl⟩

omit [PythonText] in
theorem storable_plane {jobId ticketId : Str} {version : Int} (status : TicketStatus)
    (hjob : encodable jobId = true) (hticket : encodable ticketId = true) :
    Storable { jobId, jobType := "plane_sync", aggregateId := ticketId
               idempotencyKey := text "plane-sync:" ++ ticketId ++ text ":" ++ intText version ++
                 text ":" ++ text status.value
               payload := [("ticket_id", .str ticketId)] } where
  id := hjob
  jobType := by dsimp only; decide
  plain := by dsimp only; decide +kernel
  aggregate := hticket
  key := by
    have hmarks : encodable (text "plane-sync:") = true ∧ encodable (text ":") = true := by decide
    have hversion : encodable (intText version) = true :=
      encodable_of_isAscii (isAscii_intText version)
    simp only [encodable_append, hmarks.1, hmarks.2, hticket, hversion,
      encodable_statusValue status, Bool.and_self]
  unreserved := by
    have hhead : text "plane-sync:" = 0x70 :: (text "plane-sync:").tail := by decide
    dsimp only
    rw [hhead]
    exact ⟨0x70, _, rfl, by decide, by decide⟩
  payload := by simp only [hasLongInt, hasLongIntFields, Bool.or_false]
  available := by simp
  attempts := by
    dsimp only
    omega
  resourceClass := rfl
  deadline := rfl

/-- A job that can be stored is taken. -/
theorem serve_enqueueJob (hgranted : Granted cfg latest) (hstored : Stored m) {a : EnqueueArgs}
    (ha : Storable a) (hfresh : m.jobs.find? a.jobId = none) {r : Except PyError DurableJob}
    (hserve : Serve latest m (.enqueueJob a) r db') : ∃ job, r = .ok job := by
  obtain ⟨now, -, hcommits⟩ := hserve
  obtain ⟨⟨job, jobs⟩, hqueued⟩ := @Storable.accepted _ _ _ now hgranted.float ha hstored.jobs hfresh
  have hrun : onJobs (enqueueJob a now) m = .ok (job, { m with jobs }) := by
    rw [onJobs, hqueued]
    rfl
  exact ⟨job, (hcommits.ok hrun).1⟩

/-- A ticket that is past the start of its execution can be escalated. -/
theorem escalateTicket_ok (hgranted : Granted cfg latest) (hstored : Stored m) {id : Str}
    (hlate : Late m id) {e : PyError} {x : Except PyError Unit}
    (hends : Ends (Serve latest) m (escalateTicket cfg id e) h x db') : x = .ok () := by
  obtain ⟨t, ht, hcaptured, hwaiting⟩ := hlate
  unfold escalateTicket transitionProcess at hends
  rcases ends_bind.1 hends with ⟨updated, h₁, h₂, m₁, rfl, hmoved, hrest⟩ | ⟨e', hmoved, -⟩
  · obtain ⟨r, -, hr, hserve⟩ := (ends_raising_perform (Op.transitionTicket _) rfl).1 hmoved
    obtain ⟨now, rfl, rfl⟩ :=
      serve_transitionTicket rfl ht (allows_escalated hcaptured hwaiting) hserve
    cases hr
    have hid : encodable id = true := by
      have hmem := hstored.tickets t (Table.mem_of_find? ht)
      rwa [Table.key_of_find? ht] at hmem
    dsimp only at hrest
    split at hrest
    · exact (ends_pure.1 hrest).2.1
    · rcases ends_bind.1 hrest with ⟨jobId, h₃, h₄, m₂, rfl, hnew, hlast⟩ | ⟨e', hnew, -⟩
      · obtain ⟨_, -, hreply, rfl, hfresh⟩ := ends_perform.1 hnew
        cases hreply
        rcases ends_bind.1 hlast with ⟨job, h₅, h₆, m₃, rfl, -, hend⟩ | ⟨e', hqueued, -⟩
        · exact (ends_pure.1 hend).2.1
        · obtain ⟨r, -, hr, hserve'⟩ := (ends_raising_perform (Op.enqueueJob _) rfl).1 hqueued
          obtain ⟨job, rfl⟩ := serve_enqueueJob hgranted (hstored.updateTicket id _)
            (storable_plane _ hfresh.text hid) hfresh.job hserve'
          cases hr
      · obtain ⟨_, -, hreply, -⟩ := ends_perform.1 hnew
        cases hreply
  · obtain ⟨r, -, hr, hserve⟩ := (ends_raising_perform (Op.transitionTicket _) rfl).1 hmoved
    obtain ⟨now, rfl, -⟩ :=
      serve_transitionTicket rfl ht (allows_escalated hcaptured hwaiting) hserve
    cases hr

/-- A review raises only on a ticket that is past the start of its execution. -/
theorem processJob_late (hgranted : Granted cfg latest) {completedAt : Str} {e : PyError}
    (hends : Ends (Serve latest) m (processJob cfg job completedAt) h (.error e) db') :
    ∃ id, jobTicketId cfg job = .ok id ∧ Late m id := by
  obtain ⟨id, hid⟩ := hgranted.ticketId job
  obtain ⟨revision, hrevision⟩ := hgranted.textOr job "source_action_revision" []
  unfold processJob at hends
  rw [hid, hrevision] at hends
  refine ⟨id, hid, ?_⟩
  rcases ends_bind.1 hends with ⟨_, h₁, h₂, m₁, rfl, hread, hrest⟩ | ⟨e', hread, -⟩
  · obtain ⟨-, hsame, rfl⟩ := ends_ofExcept.1 hread
    cases hsame
    rcases ends_bind.1 hrest with ⟨_, h₃, h₄, m₂, rfl, hread', hrest'⟩ | ⟨e', hread', -⟩
    · obtain ⟨-, hsame, rfl⟩ := ends_ofExcept.1 hread'
      cases hsame
      rcases ends_bind.1 hrest' with ⟨found, h₅, h₆, m₃, rfl, hfound, hlast⟩ | ⟨e', hfound, -⟩
      · obtain ⟨_, -, hreply, rfl, rfl⟩ := ends_perform.1 hfound
        cases hreply
        cases hticket : m₃.tickets.find? id with
        | none =>
          rw [hticket] at hlast
          cases (ends_pure.1 hlast).2.1
        | some ticket =>
          rw [hticket] at hlast
          dsimp only at hlast
          split at hlast
          · cases (ends_pure.1 hlast).2.1
          split at hlast
          · cases (ends_pure.1 hlast).2.1
          next hstatus =>
            refine ⟨ticket, hticket, fun hcaptured => hstatus ?_, fun hwaiting => hstatus ?_⟩
            · simp [hcaptured]
            · simp [hwaiting]
      · obtain ⟨_, -, hreply, -⟩ := ends_perform.1 hfound
        cases hreply
    · cases (ends_ofExcept.1 hread').2.1
  · cases (ends_ofExcept.1 hread).2.1

/-- The statuses in which a claimed review may end. -/
def settledStatuses : List JobStatus := [.completed, .retry, .deadLetter]

theorem reviewJob_handles (hgranted : Granted cfg latest) (hstored : Stored m)
    (hleased : Leased cfg m job) {completedAt : Str} {x : Except PyError WorkerResult}
    (hends : Ends (Serve latest) m (reviewJob cfg job completedAt) h x db') :
    (∃ result, x = .ok result ∧ Handles settledStatuses [job] m db') ∨
      ∃ e id, x = .error e ∧ Advances m db' ∧ jobTicketId cfg job = .ok id ∧ Late m id := by
  rcases ends_bind.1 hends with ⟨outcome, h₁, h₂, m₁, rfl, hdone, hrest⟩ | ⟨e, hfailed, rfl⟩
  · have hadvances : Advances m m₁ := ends_advances (processJob_steady ..) hdone
    have hstored₁ : Stored m₁ := ends_stored hdone hstored
    have hleased₁ := hleased.advances hadvances
    rcases ends_bind.1 hrest with ⟨b, h₃, h₄, m₂, rfl, hcompleted, hlast⟩ | ⟨e, hcompleted, -⟩
    · obtain ⟨-, rfl, rfl⟩ := ends_pure.1 hlast
      obtain ⟨r, -, -, hserve⟩ := (ends_raising_perform (Op.completeJob ..) rfl).1 hcompleted
      obtain ⟨-, row, jobs, rfl, hrow, hstatus, hothers⟩ :=
        serve_completeJob hgranted hstored₁ hleased₁ hserve
      refine .inl ⟨_, rfl, .of_update hadvances hrow ?_ hothers⟩
      simp [settledStatuses, hstatus]
    · obtain ⟨r, -, hr, hserve⟩ := (ends_raising_perform (Op.completeJob ..) rfl).1 hcompleted
      obtain ⟨rfl, -⟩ := serve_completeJob hgranted hstored₁ hleased₁ hserve
      cases hr
  · obtain ⟨id, hid, hlate⟩ := processJob_late hgranted hfailed
    exact .inr ⟨e, id, rfl, ends_advances (processJob_steady ..) hfailed, hid, hlate⟩

omit [PythonText] in
theorem escalateTicket_steady (cfg : ReviewConfig) (ticketId : Str) (e : PyError) :
    Safe Steady h (escalateTicket cfg ticketId e) := by
  refine Safe.bind (safe_steady rfl).raising fun _ updated _ => ?_
  cases updated with
  | none => exact safe_pure
  | some ticket =>
    refine Safe.ite safe_pure (Safe.bind (safe_steady rfl) fun _ jobId _ => ?_)
    exact Safe.bind (safe_steady rfl).raising fun _ _ _ => safe_pure

omit [PythonText] in
theorem releasedStatus_settled (huncancelled : job.cancelRequestedAt = none) :
    job.releasedStatus ∈ settledStatuses := by
  rw [DurableJob.releasedStatus, huncancelled]
  simp only [Option.isSome_none, Bool.false_eq_true, if_false]
  split <;> decide

theorem retryReview_handles (hgranted : Granted cfg latest) (hstored : Stored m)
    (hleased : Leased cfg m job) (hattempts : job.attemptCount ≤ 1024) {id : Str}
    (hid : jobTicketId cfg job = .ok id) (hlate : Late m id) {e : PyError}
    {x : Except PyError WorkerResult}
    (hends : Ends (Serve latest) m (retryReview cfg job e) h x db') :
    ∃ result, x = .ok result ∧ Handles settledStatuses [job] m db' := by
  obtain ⟨n, hdelay, hlow, hhigh⟩ := retryDelay_ok hattempts
  unfold retryReview at hends
  rw [hdelay, hid] at hends
  rcases ends_bind.1 hends with ⟨delay, h₁, h₂, m₁, rfl, hread, hrest⟩ | ⟨e', hread, -⟩
  case inr => cases (ends_ofExcept.1 hread).2.1
  obtain ⟨-, hsame, rfl⟩ := ends_ofExcept.1 hread
  cases hsame
  rcases ends_bind.1 hrest with ⟨b, h₃, h₄, m₂, rfl, hretried, hrest'⟩ | ⟨e', hretried, -⟩
  case inr =>
    obtain ⟨r, -, hr, hserve⟩ := (ends_raising_perform (Op.retryJob ..) rfl).1 hretried
    obtain ⟨rfl, -⟩ :=
      serve_retryJob hgranted hstored hleased (encodable_className e) hlow hhigh hserve
    cases hr
  obtain ⟨r, -, -, hserve⟩ := (ends_raising_perform (Op.retryJob ..) rfl).1 hretried
  obtain ⟨-, row, jobs, rfl, hrow, hstatus, hothers⟩ :=
    serve_retryJob hgranted hstored hleased (encodable_className e) hlow hhigh hserve
  have hhandles : Handles settledStatuses [job] m₁ { m₁ with jobs } :=
    .of_update (.refl m₁) hrow (hstatus ▸ releasedStatus_settled hleased.uncancelled) hothers
  have hstored₂ : Stored { m₁ with jobs } := ends_stored hretried hstored
  rcases ends_bind.1 hrest' with ⟨persisted, h₅, h₆, m₃, rfl, hpersisted, hlast⟩ |
    ⟨e', hpersisted, -⟩
  case inr =>
    obtain ⟨_, -, hreply, -⟩ := ends_perform.1 hpersisted
    cases hreply
  obtain ⟨_, -, hreply, rfl, -⟩ := ends_perform.1 hpersisted
  cases hreply
  split at hlast
  case isFalse =>
    obtain ⟨-, rfl, rfl⟩ := ends_pure.1 hlast
    exact ⟨_, rfl, hhandles⟩
  rcases ends_bind.1 hlast with ⟨ticketId, h₇, h₈, m₄, rfl, hnamed, hescalated⟩ | ⟨e', hnamed, -⟩
  case inr => cases (ends_ofExcept.1 hnamed).2.1
  obtain ⟨-, hsame, rfl⟩ := ends_ofExcept.1 hnamed
  cases hsame
  split at hescalated
  · obtain ⟨-, rfl, rfl⟩ := ends_pure.1 hescalated
    exact ⟨_, rfl, hhandles⟩
  · rcases ends_bind.1 hescalated with ⟨_, h₉, h₁₀, m₅, rfl, hmoved, hend⟩ | ⟨e', hmoved, -⟩
    · obtain ⟨-, rfl, rfl⟩ := ends_pure.1 hend
      exact ⟨_, rfl, hhandles.advances (ends_advances (escalateTicket_steady ..) hmoved)⟩
    · cases escalateTicket_ok hgranted hstored₂ hlate hmoved

/-- The loop over the reviews, where no job has been tried too often. -/
theorem runReviews_handles (hgranted : Granted cfg latest) {completedAt : Str}
    {jobs : List DurableJob} (hstored : Stored m) (hleased : ∀ job ∈ jobs, Leased cfg m job)
    (hnodup : (jobs.map DurableJob.jobId).Nodup) (hattempts : ∀ job ∈ jobs, job.attemptCount ≤ 1024)
    {x : Except PyError (List WorkerResult)}
    (hends : Ends (Serve latest) m (runReviews cfg completedAt jobs) h x db') :
    ∃ results, x = .ok results ∧ Handles settledStatuses jobs m db' := by
  induction jobs generalizing m h x with
  | nil =>
    obtain ⟨-, rfl, rfl⟩ := ends_pure.1 hends
    exact ⟨[], rfl, handles_nil⟩
  | cons job jobs ih =>
    rw [List.map_cons, List.nodup_cons] at hnodup
    have hjob := hleased job List.mem_cons_self
    have hcount := hattempts job List.mem_cons_self
    have hfirst : ∀ {h₁ m₁} {y : Except PyError WorkerResult}, Ends (Serve latest) m
        ((reviewJob cfg job completedAt).handle (retryReview cfg job)) h₁ y m₁ →
        ∃ result, y = .ok result ∧ Handles settledStatuses [job] m m₁ := by
      intro h₁ m₁ y hended
      rcases ends_handle hended with ⟨a, hdone, rfl⟩ | ⟨e, h₂, h₃, m₂, rfl, hfailed, hretried⟩
      · rcases reviewJob_handles hgranted hstored hjob hdone with ⟨_, -, hhandles⟩ | ⟨_, _, hx, -⟩
        · exact ⟨a, rfl, hhandles⟩
        · cases hx
      · rcases reviewJob_handles hgranted hstored hjob hfailed with ⟨_, hx, -⟩ |
          ⟨_, id, -, hadvances, hid, hlate⟩
        · cases hx
        · obtain ⟨result, rfl, hhandles⟩ := retryReview_handles hgranted (ends_stored hfailed hstored)
            (hjob.advances hadvances) hcount hid (hlate.advances hadvances) hretried
          exact ⟨result, rfl, hadvances.handles hhandles⟩
    rcases ends_bind.1 hends with ⟨result, h₁, h₂, m₁, rfl, hended, hrest⟩ | ⟨e, hended, -⟩
    · obtain ⟨_, -, hhandles⟩ := hfirst hended
      have hrest' : ∀ j ∈ jobs, Leased cfg m₁ j := by
        intro j hj
        have hheld := hleased j (List.mem_cons_of_mem _ hj)
        refine hheld.of_find? (hhandles.others _ _ ?_ hheld.row)
        rw [List.map_cons, List.map_nil, List.mem_singleton]
        exact fun hsame => hnodup.1 (hsame ▸ List.mem_map_of_mem hj)
      rcases ends_bind.1 hrest with ⟨results, h₃, h₄, m₂, rfl, hothers, hpure⟩ | ⟨e, hothers, -⟩
      · obtain ⟨-, rfl, rfl⟩ := ends_pure.1 hpure
        obtain ⟨_, -, hhandled⟩ := ih (ends_stored hended hstored) hrest' hnodup.2
          (fun j hj => hattempts j (List.mem_cons_of_mem _ hj)) hothers
        exact ⟨_, rfl, hhandles.cons hhandled hnodup.1⟩
      · obtain ⟨_, hx, -⟩ := ih (ends_stored hended hstored) hrest' hnodup.2
          (fun j hj => hattempts j (List.mem_cons_of_mem _ hj)) hothers
        cases hx
    · obtain ⟨_, hx, -⟩ := hfirst hended
      cases hx

end Reviews

end HardyAI.Tickets
