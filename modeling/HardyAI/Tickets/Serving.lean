import HardyAI.Tickets.Requests
import HardyAI.Tickets.Transitions

/-! The requests of the review worker as the database serves them, one after another, and what
every database that the repository's calls can reach keeps. -/

open Foundation Foundation.Json Foundation.Trace HardyAI.Jobs

namespace HardyAI.Tickets

section Serve

/-- An identifier that `uuid4` has just made. -/
structure Fresh (db : TicketDb) (id : Str) : Prop where
  text : encodable id = true
  ticket : db.tickets.find? id = none
  entry : ∀ e ∈ db.entries.rows, e.entryId ≠ id
  expectation : ∀ e ∈ db.expectations.rows, e.expectationId ≠ id
  review : db.reviews.find? id = none
  job : db.jobs.find? id = none

/-- The reply and the state of a transaction. -/
def Commits {α : Type} (t : Transaction TicketDb α) (db : TicketDb) (r : Except PyError α)
    (db' : TicketDb) : Prop := t.reply db = r ∧ t.commit db = db'

variable [PythonText]

omit [PythonText] in
/-- `create_ticket` with the binding of the identifier. -/
def createBound (a : CreateArgs) (now : Instant) : Transaction TicketDb (Option Ticket) :=
  fun db => do
    bindParameters [.text a.ticketId]
    createTicket a now db

/-- One request. The clock is read anew by each operation and is not past `latest`; the
verifiers, the model, the gateway and the live input are not bound by the database. -/
def Serve (latest : Instant) (db : TicketDb) : (op : Op) → op.Reply → TicketDb → Prop
  | .newId, id, db' => db' = db ∧ Fresh db id
  | .getTicket ticketId, r, db' => db' = db ∧ r = db.tickets.find? ticketId
  | .getTicketByRequestId requestId, r, db' => db' = db ∧ r = db.ticketByRequest? requestId
  | .createTicket a, r, db' => ∃ now ≤ latest, Commits (createBound a now) db r db'
  | .transitionTicket a, r, db' => ∃ now ≤ latest, Commits (transitionTicket a now) db r db'
  | .appendEntry a, r, db' => ∃ now ≤ latest, Commits (appendEntry a now) db r db'
  | .getEntryByDedupe key, r, db' => db' = db ∧ r = db.entries.find? key
  | .listEntries ticketId, r, db' => db' = db ∧ r = db.listEntries ticketId
  | .listExecutionManifests ticketId, r, db' => db' = db ∧ r = db.listExecutionManifests ticketId
  | .listReceipts ticketId, r, db' => db' = db ∧ r = db.listReceipts ticketId
  | .listExpectations ticketId, r, db' => db' = db ∧ r = db.listExpectations ticketId
  | .reserve a, r, db' => ∃ now ≤ latest, Commits (reserve a now) db r db'
  | .recordChildOutcome a, r, db' =>
    ∃ now ≤ latest, Commits (recordChildOutcomeAtomic a now) db r db'
  | .recordOperationCompletion a, r, db' =>
    ∃ now ≤ latest, Commits (recordOperationCompletionAtomic a now) db r db'
  | .scheduleVerification a, r, db' =>
    ∃ now ≤ latest, Commits (scheduleVerification a now) db r db'
  | .startReviewRun a, r, db' => ∃ now ≤ latest, Commits (startReviewRun a now) db r db'
  | .completeReviewRun a, r, db' => ∃ now ≤ latest, Commits (completeReviewRun a now) db r db'
  | .findLaterTickets key since exclude, r, db' =>
    db' = db ∧ r = db.findLaterTickets key since exclude
  | .enqueueJob a, r, db' => ∃ now ≤ latest, Commits (onJobs (enqueueJob a now)) db r db'
  | .claimJobs jobType workerId limit leaseSeconds, r, db' => ∃ now ≤ latest,
    Commits (onJobs (claimJobs jobType workerId limit leaseSeconds now)) db r db'
  | .completeJob jobId workerId, r, db' =>
    ∃ now ≤ latest, Commits (onJobs (completeJob jobId workerId none now)) db r db'
  | .retryJob jobId workerId errorCode delaySeconds, r, db' => ∃ now ≤ latest,
    Commits (onJobs (retryJob jobId workerId errorCode delaySeconds none now)) db r db'
  | .getJob jobId, r, db' => db' = db ∧ r = db.jobs.find? jobId
  | .observe .., _, db' | .buildContext _, _, db' | .review _, _, db'
  | .executeRemediation .., _, db' | .hasRecentLiveInput, _, db' => db' = db

end Serve

section Commits

variable {α : Type} {t : Transaction TicketDb α} {db db' : TicketDb} {r : Except PyError α}

theorem Commits.ok (h : Commits t db r db') {a : α} {m : TicketDb} (hrun : t db = .ok (a, m)) :
    r = .ok a ∧ db' = m := by
  obtain ⟨hreply, hcommit⟩ := h
  rw [Transaction.reply, hrun] at hreply
  rw [Transaction.commit_of_ok hrun] at hcommit
  exact ⟨hreply.symm, hcommit.symm⟩

theorem Commits.error (h : Commits t db r db') {e : PyError} (hrun : t db = .error e) :
    r = .error e ∧ db' = db := by
  obtain ⟨hreply, hcommit⟩ := h
  rw [Transaction.reply, hrun] at hreply
  rw [Transaction.commit_of_error hrun] at hcommit
  exact ⟨hreply.symm, hcommit.symm⟩

/-- A transaction has run and committed, or it has failed and changed nothing. -/
theorem Commits.cases (h : Commits t db r db') :
    (∃ a, r = .ok a ∧ t db = .ok (a, db')) ∨ ∃ e, r = .error e ∧ db' = db ∧ t db = .error e := by
  rcases hrun : t db with e | ⟨a, m⟩
  · obtain ⟨rfl, rfl⟩ := h.error hrun
    exact .inr ⟨e, rfl, rfl, rfl⟩
  · obtain ⟨rfl, rfl⟩ := h.ok hrun
    exact .inl ⟨a, rfl, rfl⟩

end Commits

section Stored

variable [PythonText]

/-- The identifiers that the repository makes are texts that can be stored. -/
def Call.Plain : Call → Prop
  | .createTicket a _ => encodable a.ticketId = true
  | _ => True

/-- What every row of the ledger keeps. -/
structure JobStored (r : DurableJob) : Prop where
  id : encodable r.jobId = true
  approvalKey : (approvalJobFields r.jobType).isSome = true →
    protectedPrefix r.idempotencyKey = true

/-- What a database that the calls of the repository reach keeps. -/
structure Stored (db : TicketDb) : Prop where
  tickets : ∀ t ∈ db.tickets.rows, encodable t.ticketId = true
  jobs : ∀ j r, db.jobs.find? j = some r → JobStored r
  receipts : ∀ r ∈ db.receipts.rows, (Json.obj r.expectedEffect).hasLongInt = false

omit [PythonText] in
theorem startsWith_append (before rest : Str) : startsWith (before ++ rest) before = true := by
  rw [startsWith, List.isPrefixOf_iff_prefix]
  exact List.prefix_append before rest

/-- The key that an approval job has to carry begins with a reserved text. -/
theorem protectedPrefix_of_expected {jobType proposalId reviewId operationId key : Str}
    {payload : List (Str × Json)}
    (h : expectedApprovalKey jobType proposalId reviewId operationId payload = .ok key) :
    protectedPrefix key = true := by
  unfold expectedApprovalKey at h
  rw [protectedPrefix, List.any_eq_true]
  split at h
  · simp only [bind_eq_ok, Except.ok.injEq] at h
    obtain ⟨destination, -, rfl⟩ := h
    refine ⟨text "review-notification-discord:v1:", by simp, ?_⟩
    simp only [List.append_assoc]
    exact startsWith_append _ _
  · split at h
    · simp only [bind_eq_ok, Except.ok.injEq] at h
      obtain ⟨state, -, destination, -, _, -, rfl⟩ := h
      refine ⟨text "review-outcome-discord:v1:", by simp, ?_⟩
      simp only [List.append_assoc]
      exact startsWith_append _ _
    · cases h
      refine ⟨text "review-action-execution:v1:", by simp, ?_⟩
      simp only [List.append_assoc]
      exact startsWith_append _ _

theorem jobStored_of_row {a : EnqueueArgs} {now : Instant} {r : DurableJob}
    (h : a.row now = .ok r) : JobStored r := by
  simp only [EnqueueArgs.row, bind_eq_ok, Except.ok.injEq] at h
  obtain ⟨_, hvalid, payloadJson, _, resourceClass, _, _, hbound, rfl⟩ := h
  refine ⟨bindParameters_encodable hbound List.mem_cons_self, fun happroval => ?_⟩
  unfold validateApprovalJob at hvalid
  obtain ⟨fields, hfields⟩ := Option.isSome_iff_exists.1 happroval
  dsimp only at hfields
  rw [hfields] at hvalid
  simp only [bind_eq_ok, require_eq_ok, decide_eq_true_eq] at hvalid
  obtain ⟨_, _, _, _, _, _, _, _, _, _, _, _, _, _, expected, hexpected, _, hkey, _⟩ := hvalid
  dsimp only
  rw [hkey]
  exact protectedPrefix_of_expected hexpected

/-- Every call of the ledger keeps what is kept of its rows. -/
theorem jobStored_step {l : JobLedger} (hl : ∀ j r, l.find? j = some r → JobStored r)
    (c : Jobs.Call) (j : Str) (r' : DurableJob) (hr' : (Jobs.step l c).find? j = some r') :
    JobStored r' := by
  have hof {r : DurableJob} (hold : l.find? j = some r) (hid : r'.jobId = r.jobId)
      (htype : r'.jobType = r.jobType) (hkey : r'.idempotencyKey = r.idempotencyKey) :
      JobStored r' := by
    obtain ⟨hencodable, happroval⟩ := hl j r hold
    exact ⟨hid ▸ hencodable, fun h => hkey ▸ happroval (htype ▸ h)⟩
  cases row_cases hr' with
  | created _ _ hrow => exact jobStored_of_row hrow
  | claimed _ _ _ hold hsweep =>
    obtain ⟨hid, htype, hkey⟩ := RowSteps.keys hsweep
    exact hof hold hid htype hkey
  | deferred _ _ _ hold => exact hof hold rfl rfl rfl
  | requeued _ _ hold => exact hof hold rfl rfl rfl
  | plain hold hstep =>
    obtain ⟨hid, htype, hkey⟩ := RowSteps.keys hstep
    exact hof hold hid htype hkey

variable {db db' : TicketDb} {now : Instant}

omit [PythonText] in
theorem Stored.of_frame (h : Stored db) (htickets : db'.tickets = db.tickets)
    (hjobs : db'.jobs = db.jobs) (hreceipts : db'.receipts = db.receipts) : Stored db' :=
  ⟨htickets ▸ h.tickets, hjobs ▸ h.jobs, hreceipts ▸ h.receipts⟩

omit [PythonText] in
theorem Stored.updateTicket (h : Stored db) (ticketId : Str) (a : TicketAssignment) :
    Stored (db.updateTicket ticketId a) := by
  refine ⟨fun t ht => ?_, h.jobs, h.receipts⟩
  obtain ⟨old, hold, rfl⟩ := Table.mem_update.1 ht
  split
  · rw [a.keeps]
    exact h.tickets old hold
  · exact h.tickets old hold

omit [PythonText] in
theorem Stored.withJobs (h : Stored db) {jobs : JobLedger}
    (hjobs : ∀ j r, jobs.find? j = some r → JobStored r) : Stored { db with jobs } :=
  ⟨h.tickets, hjobs, h.receipts⟩

theorem Stored.enqueue (h : Stored db) {a : EnqueueArgs} {job : DurableJob} {jobs : JobLedger}
    (hrun : enqueueJob a now db.jobs = .ok (job, jobs)) : Stored { db with jobs } := by
  refine h.withJobs fun j r hr => jobStored_step h.jobs (.enqueueJob a now) j r ?_
  have hstep : Jobs.step db.jobs (.enqueueJob a now) = jobs := by
    show ((enqueueJob a now).mapReply (Reply.row ∘ some)).commit db.jobs = jobs
    rw [Transaction.commit_mapReply, Transaction.commit_of_ok hrun]
  rw [hstep]
  exact hr

theorem storable_expectedEffect {r : OperationReceipt} {u : Unit} (h : r.storable = .ok u) :
    (Json.obj r.expectedEffect).hasLongInt = false := by
  simp only [OperationReceipt.storable, bind_eq_ok] at h
  obtain ⟨_, hdump, -⟩ := h
  unfold dump at hdump
  split at hdump
  · cases hdump
  · next hshort => simpa using hshort

theorem Stored.receive (h : Stored db) {ticketId : Str} {r : OperationReceipt} {row : ReceiptRow}
    (hrun : recordOperationReceiptCursor ticketId r db = .ok (row, db')) : Stored db' := by
  have hstorable : r.storable = .ok () := by
    simp only [recordOperationReceiptCursor, bind_eq_ok] at hrun
    obtain ⟨_, hstorable, -⟩ := hrun
    exact hstorable
  cases recordOperationReceiptCursor_spec hrun with
  | replayed _ _ hdb => exact hdb ▸ h
  | recorded _ hrow _ hinsert hdb =>
    subst hdb
    refine ⟨h.tickets, h.jobs, fun old hold => ?_⟩
    dsimp only at hold
    rw [(Table.insert?_eq_some hinsert).2, List.mem_append, List.mem_singleton] at hold
    rcases hold with hold | rfl
    · exact h.receipts old hold
    · rw [hrow]
      exact storable_expectedEffect hstorable

theorem Stored.effect (h : Stored db)
    {ticketId requestId operationId expectationId entryId entryKey : Str} {r : OperationReceipt}
    {p : ReceiptRow × Expectation × TicketEntry}
    (hrun : recordEffect ticketId requestId operationId expectationId entryId entryKey r now db =
      .ok (p, db')) : Stored db' := by
  simp only [recordEffect, bind_eq_ok] at hrun
  obtain ⟨⟨row, db₁⟩, hreceipt, ⟨expectation, db₂⟩, hexpectation, ⟨entry, db₃⟩, hentry, hrun⟩ := hrun
  cases hrun
  obtain ⟨expectations, rfl⟩ := (createExpectationCursor_spec hexpectation).frame
  obtain ⟨entries, rfl⟩ := (appendEntryCursor_spec hentry).frame
  exact (h.receive hreceipt).of_frame rfl rfl rfl

omit [PythonText] in
theorem Stored.create (h : Stored db) {a : CreateArgs} {reply : Option Ticket}
    (ha : encodable a.ticketId = true) (hrun : createTicket a now db = .ok (reply, db')) :
    Stored db' := by
  rcases createTicket_spec hrun with rfl | ⟨tickets, hinsert, rfl⟩
  · exact h
  · refine ⟨fun t ht => ?_, h.jobs, h.receipts⟩
    dsimp only at ht
    rw [(Table.insert?_eq_some hinsert).2, List.mem_append, List.mem_singleton] at ht
    rcases ht with ht | rfl
    · exact h.tickets t ht
    · exact ha

theorem Stored.step (h : Stored db) {c : Call} (hc : c.Plain) : Stored (step db c) := by
  cases c with
  | createTicket a now =>
    exact Transaction.commit_of_forall h fun _ _ hrun => h.create hc hrun
  | transitionTicket a now =>
    refine Transaction.commit_of_forall h fun _ db' hrun => ?_
    rcases transitionTicket_spec hrun with rfl | ⟨_, _, _, rfl⟩
    · exact h
    · exact h.updateTicket ..
  | updatePlaneMapping => exact h.updateTicket ..
  | appendEntry a now =>
    refine Transaction.commit_of_forall h fun _ db' hrun => ?_
    obtain ⟨entries, rfl⟩ := appendEntry_frame hrun
    exact h.of_frame rfl rfl rfl
  | appendEntryExact a code now =>
    refine Transaction.commit_of_forall h fun _ db' hrun => ?_
    obtain ⟨entries, rfl⟩ := (appendEntryCursor_spec hrun).frame
    exact h.of_frame rfl rfl rfl
  | reserveExecutionManifest a now =>
    refine Transaction.commit_of_forall h fun _ db' hrun => ?_
    obtain ⟨_, _, _, _, _, happend⟩ := reserveExecutionManifestAtomic_spec hrun
    obtain ⟨entries, rfl⟩ := happend.frame
    exact h.of_frame rfl rfl rfl
  | recordOperationReceipt ticketId r =>
    exact Transaction.commit_of_forall h fun _ _ hrun => h.receive hrun
  | createExpectation a now =>
    refine Transaction.commit_of_forall h fun _ db' hrun => ?_
    obtain ⟨expectations, rfl⟩ := (createExpectationCursor_spec hrun).frame
    exact h.of_frame rfl rfl rfl
  | recordChildOutcome a now =>
    refine Transaction.commit_of_forall h fun _ db' hrun => ?_
    obtain ⟨db₁, db₂, job, jobs, heffect, happend, hjob, rfl⟩ := recordChildOutcomeAtomic_spec hrun
    have heffect' : Stored db₁ := by
      unfold recordChildEffect at heffect
      split at heffect
      · cases heffect
        exact h
      · simp only [map_eq_ok] at heffect
        obtain ⟨⟨p, db₁'⟩, hrecord, rfl⟩ := heffect
        exact h.effect hrecord
    obtain ⟨entries, rfl⟩ := happend.frame
    have hentries : Stored { db₁ with entries } := heffect'.of_frame rfl rfl rfl
    exact hentries.enqueue hjob
  | recordOperationCompletion a now =>
    exact Transaction.commit_of_forall h fun _ _ hrun => h.effect hrun
  | scheduleVerification a now =>
    refine Transaction.commit_of_forall h fun _ db' hrun => ?_
    obtain ⟨due, jobs, -, hjob, rfl⟩ := scheduleVerification_spec hrun
    exact (h.updateTicket a.ticketId _).enqueue hjob
  | startReviewRun a now =>
    refine Transaction.commit_of_forall h fun _ db' hrun => ?_
    obtain ⟨reviews, rfl⟩ := startReviewRun_frame hrun
    exact h.of_frame rfl rfl rfl
  | completeReviewRun a now =>
    refine Transaction.commit_of_forall h fun _ db' hrun => ?_
    obtain ⟨reviews, rfl⟩ := completeReviewRun_frame hrun
    exact h.of_frame rfl rfl rfl
  | job c =>
    refine Transaction.commit_of_forall h fun reply db' hrun => ?_
    obtain ⟨jobs, hjob, rfl⟩ := onJobs_spec hrun
    refine h.withJobs fun j r hr => jobStored_step h.jobs c j r ?_
    rw [Jobs.step_of_run hjob]
    exact hr

/-- A database that calls with plain identifiers reach from the empty one. -/
def Reachable (db : TicketDb) : Prop := ∃ calls, (∀ c ∈ calls, Call.Plain c) ∧ db = dbAfter calls

omit [PythonText] in
theorem stored_empty : Stored TicketDb.empty where
  tickets t ht := by cases ht
  jobs j r hr := by cases hr
  receipts r hr := by cases hr

theorem Reachable.stored (h : Reachable db) : Stored db := by
  obtain ⟨calls, hplain, rfl⟩ := h
  have hstored : Stored (run step TicketDb.empty calls) := by
    refine @run_invariant_of_forall _ _ step Stored (fun _ c => Call.Plain c)
      (fun db c hc h => h.step hc) _ stored_empty calls fun before c rest hsplit => ?_
    refine hplain c ?_
    rw [hsplit]
    exact List.mem_append_right before List.mem_cons_self
  exact hstored

end Stored

end HardyAI.Tickets
