import HardyAI.Jobs.RowCases
import HardyAI.Tickets.Repository

/-! What each operation of the ticket repository does where it commits. -/

open Foundation Foundation.Json HardyAI.Jobs

namespace HardyAI.Tickets

variable {db db' : TicketDb} {now : Instant}

section Tickets

variable {ticketId : Str} {a : TicketAssignment}

theorem find?_updateTicket (k : Str) :
    (db.updateTicket ticketId a).tickets.find? k =
      (db.tickets.find? k).map fun t => if t.ticketId = ticketId then a.apply t else t := by
  rw [TicketDb.updateTicket, Table.find?_update]
  cases db.tickets.find? k with
  | none => rfl
  | some t => by_cases ht : t.ticketId = ticketId <;> simp [ht]

theorem find?_updateTicket_self :
    (db.updateTicket ticketId a).tickets.find? ticketId =
      (db.tickets.find? ticketId).map a.apply := by
  rw [find?_updateTicket]
  cases hfind : db.tickets.find? ticketId with
  | none => rfl
  | some t => simp [Table.key_of_find? hfind]

theorem find?_updateTicket_of_ne {k : Str} (hne : k ≠ ticketId) :
    (db.updateTicket ticketId a).tickets.find? k = db.tickets.find? k := by
  rw [find?_updateTicket]
  cases hfind : db.tickets.find? k with
  | none => rfl
  | some t => simp [Table.key_of_find? hfind, hne]

theorem createTicket_spec {c : CreateArgs} {reply : Option Ticket}
    (h : createTicket c now db = .ok (reply, db')) :
    db' = db ∨ ∃ tickets, db.tickets.insert? (c.row now) = some tickets ∧
      db' = { db with tickets } := by
  unfold createTicket at h
  split at h
  · cases h
    exact .inl rfl
  · split at h
    · cases h
      exact .inl rfl
    · next tickets hinsert =>
      simp only [bind_eq_ok, require_eq_ok, Except.ok.injEq, Prod.mk.injEq] at h
      obtain ⟨_, _, _, rfl⟩ := h
      exact .inr ⟨tickets, hinsert, rfl⟩

theorem transitionTicket_spec {t : TransitionArgs} {reply : Option Ticket}
    (h : transitionTicket t now db = .ok (reply, db')) :
    db' = db ∨ ∃ current, db.tickets.find? t.ticketId = some current ∧
      (t.status = current.status ∨ current.status.Allows t.status) ∧
      db' = db.updateTicket t.ticketId (transitioned t now) := by
  unfold transitionTicket at h
  split at h
  · cases h
    exact .inl rfl
  · next current hfind =>
    simp only [bind_eq_ok, require_eq_ok, Bool.or_eq_true, decide_eq_true_eq] at h
    obtain ⟨_, hallowed, h⟩ := h
    split_ifs at h
    · cases h
      exact .inr ⟨current, hfind, hallowed, rfl⟩
    · cases h
      exact .inl rfl

/-- A transition that the table does not allow is refused. -/
theorem transitionTicket_refused {t : TransitionArgs} {current : Ticket}
    (hfind : db.tickets.find? t.ticketId = some current) (hne : t.status ≠ current.status)
    (hnot : ¬ current.status.Allows t.status) :
    transitionTicket t now db = .error (invalidTransition current.status t.status) := by
  simp only [transitionTicket, hfind, require, Bool.or_eq_true, decide_eq_true_eq, hne, hnot,
    or_self, if_false]
  rfl

end Tickets

section Jobs

theorem onJobs_spec {α : Type} {t : Transaction JobLedger α} {reply : α}
    (h : onJobs t db = .ok (reply, db')) :
    ∃ jobs, t db.jobs = .ok (reply, jobs) ∧ db' = { db with jobs } := by
  simp only [onJobs, map_eq_ok, Prod.mk.injEq] at h
  obtain ⟨⟨reply', jobs⟩, hrun, rfl, rfl⟩ := h
  exact ⟨jobs, hrun, rfl⟩

end Jobs

variable [PythonText]

section Enqueue

variable {l l' : JobLedger}

omit [PythonText] in
theorem insertOrIgnore_isOk (row : DurableJob) :
    (∃ l', l.insertOrIgnore row = .ok l') ↔ l.find? row.jobId = none := by
  unfold JobLedger.insertOrIgnore
  split
  · cases hfind : l.find? row.jobId with
    | none => simp
    | some old => simp
  · split
    · next hnone =>
      obtain ⟨old, hold⟩ := Table.insert?_eq_none.1 hnone
      simp only [reduceCtorEq, exists_false, false_iff]
      intro hfresh
      rw [JobLedger.find?] at hfresh
      rw [hfresh] at hold
      cases hold
    · next jobs hinsert =>
      simp only [Except.ok.injEq, exists_eq', true_iff]
      exact (Table.insert?_eq_some hinsert).1

omit [PythonText] in
/-- The row that the key of an inserted row finds: the old one, or the row itself. -/
theorem findKey?_insertOrIgnore {row : DurableJob} (h : l.insertOrIgnore row = .ok l') :
    l'.findKey? row.idempotencyKey = some ((l.findKey? row.idempotencyKey).getD row) := by
  unfold JobLedger.insertOrIgnore at h
  split at h
  · next htaken =>
    split_ifs at h
    cases h
    obtain ⟨old, hold, hkey⟩ := List.mem_map.1 htaken
    cases hfind : l.findKey? row.idempotencyKey with
    | some found => rfl
    | none =>
      have hnot := List.find?_eq_none.1 hfind old hold
      simp [hkey] at hnot
  · next hfresh =>
    split at h
    · cases h
    · next jobs hinsert =>
      cases h
      have hnone : l.findKey? row.idempotencyKey = none := by
        refine List.find?_eq_none.2 fun old hold => ?_
        simp only [decide_eq_true_eq]
        intro hkey
        exact hfresh (hkey ▸ List.mem_map_of_mem hold)
      have hrows : l.jobs.rows.find? (fun r => r.idempotencyKey = row.idempotencyKey) = none :=
        hnone
      rw [hnone, JobLedger.findKey?, (Table.insert?_eq_some hinsert).2, List.find?_append, hrows]
      simp

/-- When a job that needs no approval is taken into the ledger. -/
theorem enqueueJob_isOk {e : EnqueueArgs} (hplain : approvalJobFields (strip e.jobType) = none) :
    (∃ p, enqueueJob e now l = .ok p) ↔ ∃ row, e.row now = .ok row ∧ l.find? e.jobId = none ∧
      ∀ old, l.findKey? row.idempotencyKey = some old → approvalJobFields old.jobType = none := by
  have hjobType : ∀ {row}, e.row now = .ok row → row.jobType = strip e.jobType := by
    intro row hrow
    simp only [EnqueueArgs.row, bind_eq_ok, Except.ok.injEq] at hrow
    obtain ⟨_, _, _, _, _, _, _, _, rfl⟩ := hrow
    rfl
  constructor
  · rintro ⟨⟨persisted, l'⟩, h⟩
    simp only [enqueueJob, bind_eq_ok] at h
    obtain ⟨row, hrow, l₁, hinsert, h⟩ := h
    have hkey := findKey?_insertOrIgnore hinsert
    refine ⟨row, hrow, ?_, fun old hold => ?_⟩
    · rw [← EnqueueArgs.row_jobId hrow]
      exact (insertOrIgnore_isOk row).1 ⟨l₁, hinsert⟩
    · rw [hold, Option.getD_some] at hkey
      rw [hkey] at h
      simp only [bind_eq_ok] at h
      obtain ⟨_, hconflict, _⟩ := h
      unfold rejectApprovalJobConflict at hconflict
      split_ifs at hconflict with hboth
      · rw [Bool.and_eq_true, Option.isNone_iff_eq_none, Option.isNone_iff_eq_none] at hboth
        exact hboth.2
      · simp only [require_eq_ok, Bool.and_eq_true, decide_eq_true_eq] at hconflict
        rw [hconflict.1.1.1, hjobType hrow, hplain]
  · rintro ⟨row, hrow, hfresh, hconflict⟩
    rw [← EnqueueArgs.row_jobId hrow] at hfresh
    obtain ⟨l', hinsert⟩ := (insertOrIgnore_isOk row).2 hfresh
    have hkey := findKey?_insertOrIgnore hinsert
    have hnone : approvalJobFields ((l.findKey? row.idempotencyKey).getD row).jobType = none := by
      cases hfind : l.findKey? row.idempotencyKey with
      | none => rw [Option.getD_none, hjobType hrow, hplain]
      | some old => exact hconflict old hfind
    refine ⟨((l.findKey? row.idempotencyKey).getD row, l'), ?_⟩
    simp only [enqueueJob, bind_eq_ok]
    refine ⟨row, hrow, l', hinsert, ?_⟩
    rw [hkey]
    simp only [bind_eq_ok]
    refine ⟨(), ?_, trivial⟩
    unfold rejectApprovalJobConflict
    rw [hjobType hrow, hplain, hnone]
    rfl

end Enqueue

section Entries

variable {a : EntryArgs} {entry : TicketEntry}

/-- An appended entry is the row of its key already, or a new row at the end. -/
inductive Appends (a : EntryArgs) (now : Instant) (db : TicketDb) (entry : TicketEntry)
    (db' : TicketDb) : Prop
  | replayed {hash : Str} (hhash : entryHash a.verbatimText a.structuredPayload = .ok hash)
      (hfind : db.entries.find? a.dedupeKey = some entry)
      (hmatches : a.conflictCode = none ∨ entry.matches a hash = true) (hdb : db' = db)
  | appended {hash : Str} {entries : Table TicketEntry.dedupeKey}
      (hhash : entryHash a.verbatimText a.structuredPayload = .ok hash)
      (hfresh : db.entries.find? a.dedupeKey = none)
      (hentry : entry = a.row (db.nextSequence a.ticketId) hash now)
      (hticket : (db.tickets.find? a.ticketId).isSome)
      (hapart : ∀ old ∈ db.entries.rows, old.entryId ≠ a.entryId)
      (hinsert : db.entries.insert? entry = some entries) (hdb : db' = { db with entries })

theorem appendEntryCursor_spec (h : appendEntryCursor a now db = .ok (entry, db')) :
    Appends a now db entry db' := by
  simp only [appendEntryCursor, bind_eq_ok] at h
  obtain ⟨hash, hhash, h⟩ := h
  split at h
  · next existing hfind =>
    simp only [bind_eq_ok, require_eq_ok, Bool.or_eq_true, Option.isNone_iff_eq_none,
      Except.ok.injEq, Prod.mk.injEq] at h
    obtain ⟨_, hmatches, rfl, rfl⟩ := h
    exact .replayed hhash hfind hmatches rfl
  · next hfresh =>
    simp only [bind_eq_ok, require_eq_ok] at h
    obtain ⟨_, hticket, h⟩ := h
    split at h
    · cases h
    · next entries hinsert =>
      cases h
      obtain ⟨hapart, hinsert⟩ := Table.insertApart?_eq_some.1 hinsert
      refine .appended hhash hfresh rfl hticket (fun old hold => ?_) hinsert rfl
      exact of_decide_eq_false (hapart old hold)

/-- Only the entries change. -/
theorem Appends.frame (h : Appends a now db entry db') : ∃ entries, db' = { db with entries } := by
  cases h with
  | replayed _ _ _ hdb => exact ⟨db.entries, hdb⟩
  | appended _ _ _ _ _ _ hdb => exact ⟨_, hdb⟩

theorem appendEntry_frame (h : appendEntry a now db = .ok (entry, db')) :
    ∃ entries, db' = { db with entries } := by
  simp only [appendEntry, bind_eq_ok] at h
  obtain ⟨_, _, h⟩ := h
  exact (appendEntryCursor_spec h).frame

theorem reserveExecutionManifestAtomic_spec {m : ManifestArgs}
    (h : reserveExecutionManifestAtomic m now db = .ok (entry, db')) :
    ∃ ticket parentOperationId, db.tickets.find? m.ticketId = some ticket ∧
      contentHash (.obj m.manifest) = .ok m.manifestHash ∧
      textOr (lookup m.manifest "parent_operation_id") [] = .ok parentOperationId ∧
      Appends {
        entryId := m.entryId, ticketId := m.ticketId, requestId := m.requestId
        entryType := .executionManifest, actorType := "jarvis", actorId := some ticket.agentId
        structuredPayload := .obj m.manifest, dedupeKey := manifestKey parentOperationId
        conflictCode := some "tool_execution_manifest_conflict" } now db entry db' := by
  simp only [reserveExecutionManifestAtomic, bind_eq_ok, require_eq_ok, decide_eq_true_eq] at h
  obtain ⟨hash, hhash, _, rfl, parentOperationId, hparent, h⟩ := h
  split at h
  · cases h
  · next ticket hticket =>
    simp only [bind_eq_ok, Except.ok.injEq] at h
    obtain ⟨⟨entry', db₁⟩, happend, _, _, h⟩ := h
    cases h
    exact ⟨ticket, parentOperationId, hticket, hhash, hparent, appendEntryCursor_spec happend⟩

end Entries

section Effects

variable {ticketId : Str} {r : OperationReceipt} {row : ReceiptRow}

/-- A recorded receipt is the only row of its operation and key already, or a new row. -/
inductive Receives (ticketId : Str) (r : OperationReceipt) (db : TicketDb) (row : ReceiptRow)
    (db' : TicketDb) : Prop
  | replayed (hfilter : (db.receipts.rows.filter fun row =>
        row.idempotencyKey = r.idempotencyKey || row.operationId = r.operationId) = [row])
      (hmatches : row.matches ticketId r = true) (hdb : db' = db)
  | recorded {receipts : Table ReceiptRow.operation}
      (hfresh : ∀ old ∈ db.receipts.rows, old.idempotencyKey ≠ r.idempotencyKey ∧
        old.operationId ≠ r.operationId)
      (hrow : row = { r with ticketId }) (hticket : (db.tickets.find? ticketId).isSome)
      (hinsert : db.receipts.insert? row = some receipts) (hdb : db' = { db with receipts })

theorem recordOperationReceiptCursor_spec
    (h : recordOperationReceiptCursor ticketId r db = .ok (row, db')) :
    Receives ticketId r db row db' := by
  simp only [recordOperationReceiptCursor, bind_eq_ok] at h
  obtain ⟨_, _, h⟩ := h
  split at h
  · next existing others hfilter =>
    simp only [bind_eq_ok, require_eq_ok, Bool.and_eq_true, List.isEmpty_iff, Except.ok.injEq,
      Prod.mk.injEq] at h
    obtain ⟨_, ⟨rfl, hmatches⟩, rfl, rfl⟩ := h
    exact .replayed hfilter hmatches rfl
  · next hfilter =>
    simp only [bind_eq_ok, require_eq_ok] at h
    obtain ⟨_, hticket, h⟩ := h
    split at h
    · cases h
    · next receipts hinsert =>
      cases h
      refine .recorded (fun old hold => ?_) rfl hticket hinsert rfl
      have hnot := List.filter_eq_nil_iff.1 hfilter old hold
      simpa [not_or] using hnot

theorem Receives.frame (h : Receives ticketId r db row db') :
    ∃ receipts, db' = { db with receipts } := by
  cases h with
  | replayed _ _ hdb => exact ⟨db.receipts, hdb⟩
  | recorded _ _ _ _ hdb => exact ⟨_, hdb⟩

variable {e : ExpectationArgs} {expectation : Expectation}

inductive Expects (e : ExpectationArgs) (now : Instant) (db : TicketDb)
    (expectation : Expectation) (db' : TicketDb) : Prop
  | replayed {hash : Str} (hhash : contentHash (.obj e.expectedState) = .ok hash)
      (hfind : db.expectations.find? e.operationId = some expectation)
      (hmatches : expectation.matches e hash = true) (hdb : db' = db)
  | created {hash : Str} {expectations : Table Expectation.operationId}
      (hhash : contentHash (.obj e.expectedState) = .ok hash)
      (hfresh : db.expectations.find? e.operationId = none)
      (hrow : expectation = e.row hash now)
      (hticket : (db.tickets.find? e.ticketId).isSome)
      (hreceipt : (db.receipts.find? e.operationId).isSome)
      (hinsert : db.expectations.insert? expectation = some expectations)
      (hdb : db' = { db with expectations })

theorem createExpectationCursor_spec
    (h : createExpectationCursor e now db = .ok (expectation, db')) :
    Expects e now db expectation db' := by
  simp only [createExpectationCursor, bind_eq_ok] at h
  obtain ⟨hash, hhash, _, _, h⟩ := h
  split at h
  · next existing hfind =>
    simp only [bind_eq_ok, require_eq_ok, Except.ok.injEq, Prod.mk.injEq] at h
    obtain ⟨_, hmatches, rfl, rfl⟩ := h
    exact .replayed hhash hfind hmatches rfl
  · next hfresh =>
    simp only [bind_eq_ok, require_eq_ok, Bool.and_eq_true] at h
    obtain ⟨_, ⟨hticket, hreceipt⟩, h⟩ := h
    split at h
    · cases h
    · next expectations hinsert =>
      cases h
      exact .created hhash hfresh rfl hticket hreceipt
        (Table.insertApart?_eq_some.1 hinsert).2 rfl

theorem Expects.frame (h : Expects e now db expectation db') :
    ∃ expectations, db' = { db with expectations } := by
  cases h with
  | replayed _ _ _ hdb => exact ⟨db.expectations, hdb⟩
  | created _ _ _ _ _ _ hdb => exact ⟨_, hdb⟩

variable {requestId operationId expectationId entryId entryKey : Str} {entry : TicketEntry}

/-- An effect is a receipt, its expectation and the entry that refers to both. -/
theorem recordEffect_spec
    (h : recordEffect ticketId requestId operationId expectationId entryId entryKey r now db =
      .ok ((row, expectation, entry), db')) :
    ∃ db₁ db₂, Receives ticketId r db row db₁ ∧
      Expects (row.expectation expectationId ticketId operationId) now db₁ expectation db₂ ∧
      Appends {
        entryId, ticketId, requestId, entryType := .operationReceipt, actorType := "domain"
        structuredPayload := row.toJson, dedupeKey := entryKey
        conflictCode := some "operation_receipt_entry_conflict" } now db₂ entry db' := by
  simp only [recordEffect, bind_eq_ok] at h
  obtain ⟨⟨row', db₁⟩, hreceipt, ⟨expectation', db₂⟩, hexpectation, ⟨entry', db₃⟩, hentry, h⟩ := h
  cases h
  exact ⟨db₁, db₂, recordOperationReceiptCursor_spec hreceipt,
    createExpectationCursor_spec hexpectation, appendEntryCursor_spec hentry⟩

theorem recordEffect_frame
    {p : ReceiptRow × Expectation × TicketEntry}
    (h : recordEffect ticketId requestId operationId expectationId entryId entryKey r now db =
      .ok (p, db')) : db'.tickets = db.tickets ∧ db'.jobs = db.jobs := by
  obtain ⟨db₁, db₂, hreceipt, hexpectation, hentry⟩ := recordEffect_spec h
  obtain ⟨receipts, rfl⟩ := hreceipt.frame
  obtain ⟨expectations, rfl⟩ := hexpectation.frame
  obtain ⟨entries, rfl⟩ := hentry.frame
  exact ⟨rfl, rfl⟩

theorem recordChildOutcomeAtomic_spec {o : OutcomeArgs}
    (h : recordChildOutcomeAtomic o now db = .ok (entry, db')) :
    ∃ db₁ db₂ job jobs, recordChildEffect o now db = .ok db₁ ∧
      Appends {
        entryId := o.entryId, ticketId := o.ticketId, requestId := o.requestId
        entryType := .childOutcome, actorType := "domain", structuredPayload := o.outcome.toJson
        dedupeKey := outcomeKey o.outcome.childOperationId
        conflictCode := some "child_outcome_idempotency_conflict" } now db₁ entry db₂ ∧
      enqueueJob o.watchdog now db₂.jobs = .ok (job, jobs) ∧ db' = { db₂ with jobs } := by
  simp only [recordChildOutcomeAtomic, bind_eq_ok] at h
  obtain ⟨db₁, heffect, ⟨entry', db₂⟩, hentry, ⟨job, db₃⟩, hjob, h⟩ := h
  cases h
  obtain ⟨jobs, henqueue, rfl⟩ := onJobs_spec hjob
  exact ⟨db₁, db₂, job, jobs, heffect, appendEntryCursor_spec hentry, henqueue, rfl⟩

theorem recordChildEffect_frame {o : OutcomeArgs} (h : recordChildEffect o now db = .ok db') :
    db'.tickets = db.tickets ∧ db'.jobs = db.jobs := by
  unfold recordChildEffect at h
  split at h
  · cases h
    exact ⟨rfl, rfl⟩
  · simp only [map_eq_ok] at h
    obtain ⟨⟨p, db₁⟩, heffect, rfl⟩ := h
    exact recordEffect_frame heffect

end Effects

section Reviews

omit [PythonText] in
theorem startReviewRun_frame {a : ReviewStart} {run : ReviewRun}
    (h : startReviewRun a now db = .ok (run, db')) : ∃ reviews, db' = { db with reviews } := by
  unfold startReviewRun at h
  split at h
  · cases h
    exact ⟨db.reviews, rfl⟩
  · split at h
    · cases h
    · simp only [bind_eq_ok, Except.ok.injEq, Prod.mk.injEq] at h
      obtain ⟨_, _, _, rfl⟩ := h
      exact ⟨_, rfl⟩

theorem completeReviewRun_frame {a : ReviewEnd} {run : Option ReviewRun}
    (h : completeReviewRun a now db = .ok (run, db')) : ∃ reviews, db' = { db with reviews } := by
  simp only [completeReviewRun, bind_eq_ok, Except.ok.injEq, Prod.mk.injEq] at h
  obtain ⟨_, _, _, _, _, _, _, rfl⟩ := h
  exact ⟨_, rfl⟩

end Reviews

section Schedule

variable {a : ScheduleArgs}

/-- What `schedule_verification` needs of its arguments and of the job ledger: a due time, a row
that can be stored, a new identifier, and no approval job under its key. -/
structure ScheduleArgs.Accepted (a : ScheduleArgs) (now due : Instant) (row : DurableJob)
    (db : TicketDb) : Prop where
  dueTime : (a.completedAt.getD now).add (a.delaySeconds.atLeast 0) = .ok due
  jobRow : (a.job due).row now = .ok row
  freshId : db.jobs.find? a.jobId = none
  freeKey : ∀ old, db.jobs.findKey? row.idempotencyKey = some old → approvalJobFields old.jobType = none

theorem scheduleVerification_isOk :
    (∃ p, scheduleVerification a now db = .ok p) ↔ ∃ due row, a.Accepted now due row db := by
  have hplain : approvalJobFields (strip (text "ticket_review")) = none := by decide +kernel
  constructor
  · rintro ⟨⟨job, db'⟩, h⟩
    simp only [scheduleVerification, bind_eq_ok] at h
    obtain ⟨due, hdue, h⟩ := h
    obtain ⟨jobs, hjob, -⟩ := onJobs_spec h
    obtain ⟨row, hrow, hfresh, hkey⟩ := (enqueueJob_isOk (e := a.job due) hplain).1 ⟨_, hjob⟩
    exact ⟨due, row, hdue, hrow, hfresh, hkey⟩
  · rintro ⟨due, row, haccepted⟩
    obtain ⟨p, hjob⟩ := (enqueueJob_isOk (e := a.job due) (l := db.jobs) hplain).2
      ⟨row, haccepted.jobRow, haccepted.freshId, haccepted.freeKey⟩
    let scheduled := verificationScheduled (isoUtc (a.completedAt.getD now)) (isoUtc due)
      a.sourceActionRevision
    refine ⟨(p.1, { db.updateTicket a.ticketId scheduled with jobs := p.2 }), ?_⟩
    simp only [scheduleVerification, bind_eq_ok]
    exact ⟨due, haccepted.dueTime, by rw [onJobs, TicketDb.updateTicket, hjob]; rfl⟩

theorem scheduleVerification_spec {job : DurableJob}
    (h : scheduleVerification a now db = .ok (job, db')) :
    ∃ due jobs, (a.completedAt.getD now).add (a.delaySeconds.atLeast 0) = .ok due ∧
      enqueueJob (a.job due) now db.jobs = .ok (job, jobs) ∧
      db' = { db.updateTicket a.ticketId (verificationScheduled (isoUtc (a.completedAt.getD now))
        (isoUtc due) a.sourceActionRevision) with jobs } := by
  simp only [scheduleVerification, bind_eq_ok] at h
  obtain ⟨due, hdue, h⟩ := h
  obtain ⟨jobs, hjob, rfl⟩ := onJobs_spec h
  exact ⟨due, jobs, hdue, hjob, rfl⟩

end Schedule

end HardyAI.Tickets
