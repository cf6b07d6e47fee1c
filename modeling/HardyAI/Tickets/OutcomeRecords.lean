import HardyAI.Tickets.ServedRequests
import HardyAI.Tickets.AsyncReceipts

/-! What a recorded outcome leaves in the tables, and that later outcomes leave it there. -/

open Foundation Foundation.Json HardyAI.Jobs

namespace HardyAI.Tickets

section Growth

/-- Rows that a table finds by a key stay, and so does the only receipt of an operation. -/
structure TicketDb.Grows (db db' : TicketDb) : Prop where
  entries : ∀ k e, db.entries.find? k = some e → db'.entries.find? k = some e
  expectations : ∀ k e, db.expectations.find? k = some e → db'.expectations.find? k = some e
  receipts : ∀ row, (db.receipts.rows.filter fun old =>
      old.idempotencyKey = row.idempotencyKey || old.operationId = row.operationId) = [row] →
    (db'.receipts.rows.filter fun old =>
      old.idempotencyKey = row.idempotencyKey || old.operationId = row.operationId) = [row]
  jobs : ∀ k job, db.jobs.findKey? k = some job → db'.jobs.findKey? k = some job

variable {db m db' : TicketDb}

theorem TicketDb.Grows.refl (db : TicketDb) : db.Grows db :=
  ⟨fun _ _ h => h, fun _ _ h => h, fun _ h => h, fun _ _ h => h⟩

theorem TicketDb.Grows.trans (hfirst : db.Grows m) (hsecond : m.Grows db') : db.Grows db' :=
  ⟨fun k e h => hsecond.entries k e (hfirst.entries k e h),
    fun k e h => hsecond.expectations k e (hfirst.expectations k e h),
    fun row h => hsecond.receipts row (hfirst.receipts row h),
    fun k job h => hsecond.jobs k job (hfirst.jobs k job h)⟩

omit db m db' in
/-- A new row hides no older one. -/
theorem find?_of_insert? {Row Key : Type} [DecidableEq Key] {key : Row → Key} {t t' : Table key}
    {row old : Row} {k : Key} (hinsert : t.insert? row = some t') (hfind : t.find? k = some old) :
    t'.find? k = some old := by
  have hne : key row ≠ k := by
    intro hkey
    rw [← hkey, (Table.insert?_eq_some hinsert).1] at hfind
    cases hfind
  rw [Table.find?_insert? hinsert, if_neg hne, hfind]

theorem findKey?_grows {l l' : JobLedger} {row old : DurableJob} {k : Str}
    (hinsert : l.insertOrIgnore row = .ok l') (hfind : l.findKey? k = some old) :
    l'.findKey? k = some old := by
  unfold JobLedger.insertOrIgnore at hinsert
  split at hinsert
  · split_ifs at hinsert
    cases hinsert
    exact hfind
  · split at hinsert
    · cases hinsert
    · next jobs hinsert' =>
      cases hinsert
      have hrows : l.jobs.rows.find? (fun r => r.idempotencyKey = k) = some old := hfind
      rw [JobLedger.findKey?, (Table.insert?_eq_some hinsert').2, List.find?_append, hrows,
        Option.some_or]

variable [PythonText]

theorem Appends.grows {a : EntryArgs} {now : Instant} {entry : TicketEntry}
    (h : Appends a now db entry db') : db.Grows db' := by
  cases h with
  | replayed _ _ _ hdb => exact hdb ▸ .refl db
  | appended _ _ _ _ _ hinsert hdb =>
    subst hdb
    exact ⟨fun _ _ hfind => find?_of_insert? hinsert hfind, fun _ _ h => h, fun _ h => h,
      fun _ _ h => h⟩

theorem Receives.grows {ticketId : Str} {r : OperationReceipt} {row : ReceiptRow}
    (h : Receives ticketId r db row db') : db.Grows db' := by
  cases h with
  | replayed _ _ hdb => exact hdb ▸ .refl db
  | recorded hfresh hrow _ hinsert hdb =>
    subst hdb
    refine ⟨fun _ _ h => h, fun _ _ h => h, fun old hold => ?_, fun _ _ h => h⟩
    have hmem : old ∈ db.receipts.rows := List.mem_of_mem_filter (hold ▸ List.mem_singleton_self old)
    obtain ⟨hkey, hoperation⟩ := hfresh old hmem
    have hnew : (decide (row.idempotencyKey = old.idempotencyKey) ||
        decide (row.operationId = old.operationId)) = false := by
      simp only [hrow, Bool.or_eq_false_iff, decide_eq_false_iff_not]
      exact ⟨Ne.symm hkey, Ne.symm hoperation⟩
    rw [(Table.insert?_eq_some hinsert).2, List.filter_append, hold, List.filter_singleton, hnew]
    rfl

theorem Expects.grows {e : ExpectationArgs} {now : Instant} {expectation : Expectation}
    (h : Expects e now db expectation db') : db.Grows db' := by
  cases h with
  | replayed _ _ _ hdb => exact hdb ▸ .refl db
  | created _ _ _ _ _ hinsert hdb =>
    subst hdb
    exact ⟨fun _ _ h => h, fun _ _ hfind => find?_of_insert? hinsert hfind, fun _ h => h,
      fun _ _ h => h⟩

theorem enqueueJob_grows {e : EnqueueArgs} {now : Instant} {job : DurableJob} {jobs : JobLedger}
    (h : enqueueJob e now db.jobs = .ok (job, jobs)) : db.Grows { db with jobs } := by
  simp only [enqueueJob, bind_eq_ok] at h
  obtain ⟨row, -, l', hinsert, h⟩ := h
  split at h
  · cases h
  · simp only [bind_eq_ok] at h
    obtain ⟨_, -, h⟩ := h
    cases h
    exact ⟨fun _ _ h => h, fun _ _ h => h, fun _ h => h,
      fun _ _ hfind => findKey?_grows hinsert hfind⟩

end Growth

section Records

variable [PythonText]

/-- The entry of a key that such an appended entry has left. -/
def EntryOnRecord (a : EntryArgs) (db : TicketDb) : Prop :=
  ∃ hash old, entryHash a.verbatimText a.structuredPayload = .ok hash ∧
    db.entries.find? a.dedupeKey = some old ∧ old.matches a hash = true

/-- The row of a receipt, its expectation and the entry that refers to them. -/
structure EffectOnRecord (o : OutcomeArgs) (r : OperationReceipt) (row : ReceiptRow)
    (db : TicketDb) : Prop where
  storable : ∃ u, r.storable = .ok u
  receipt : (db.receipts.rows.filter fun old =>
    old.idempotencyKey = row.idempotencyKey || old.operationId = row.operationId) = [row]
  same : row.matches o.ticketId r = true
  locator : ∃ s, dump true (.obj row.resourceLocator) = .ok s
  expectation : ∃ hash old, contentHash (.obj row.expectedEffect) = .ok hash ∧
    db.expectations.find? o.outcome.childOperationId = some old ∧
    old.matches (row.expectation o.expectationId o.ticketId o.outcome.childOperationId) hash = true
  entry : EntryOnRecord {
    entryId := o.receiptEntryId, ticketId := o.ticketId, requestId := o.requestId
    entryType := .operationReceipt, actorType := "domain", structuredPayload := row.toJson
    dedupeKey := receiptKey o.outcome.childOperationId
    conflictCode := some "operation_receipt_entry_conflict" } db

/-- The entry of an outcome. -/
def OutcomeArgs.entry (o : OutcomeArgs) : EntryArgs where
  entryId := o.entryId
  ticketId := o.ticketId
  requestId := o.requestId
  entryType := .childOutcome
  actorType := "domain"
  structuredPayload := o.outcome.toJson
  dedupeKey := outcomeKey o.outcome.childOperationId
  conflictCode := some "child_outcome_idempotency_conflict"

/-- Everything that the record of an outcome leaves in the tables. -/
structure OnRecord (o : OutcomeArgs) (db : TicketDb) : Prop where
  effect : ∀ r, o.receipt = some r → ∃ row, EffectOnRecord o r row db
  entry : EntryOnRecord o.entry db
  row : ∃ now row, o.watchdog.row now = .ok row
  job : ∃ job, db.jobs.findKey? (strip (childWatchdogKey o.outcome.childOperationId)) = some job ∧
    approvalJobFields job.jobType = none

variable {a : EntryArgs} {entry : TicketEntry} {now : Instant} {db db' : TicketDb}
  {o : OutcomeArgs} {r : OperationReceipt} {row : ReceiptRow}

theorem EntryOnRecord.grows (h : EntryOnRecord a db) (hgrows : db.Grows db') :
    EntryOnRecord a db' := by
  obtain ⟨hash, old, hhash, hfind, hsame⟩ := h
  exact ⟨hash, old, hhash, hgrows.entries _ _ hfind, hsame⟩

theorem EffectOnRecord.grows (h : EffectOnRecord o r row db) (hgrows : db.Grows db') :
    EffectOnRecord o r row db' := by
  obtain ⟨hash, old, hhash, hfind, hsame⟩ := h.expectation
  exact ⟨h.storable, hgrows.receipts row h.receipt, h.same, h.locator,
    ⟨hash, old, hhash, hgrows.expectations _ _ hfind, hsame⟩, h.entry.grows hgrows⟩

theorem OnRecord.grows (h : OnRecord o db) (hgrows : db.Grows db') : OnRecord o db' := by
  refine ⟨fun r hr => ?_, h.entry.grows hgrows, h.row, ?_⟩
  · obtain ⟨row, heffect⟩ := h.effect r hr
    exact ⟨row, heffect.grows hgrows⟩
  · obtain ⟨job, hfind, hplain⟩ := h.job
    exact ⟨job, hgrows.jobs _ _ hfind, hplain⟩

theorem sameText_refl (v : Json) : sameText v v = true := decide_eq_true rfl

/-- A stored row has the columns of the arguments that it was made from. -/
theorem row_matches (a : EntryArgs) (sequenceNumber : Nat) (hash : Str) (now : Instant) :
    (a.row sequenceNumber hash now).matches a hash = true := by
  simp [TicketEntry.matches, EntryArgs.row, sameText_refl]

theorem Appends.onRecord (h : Appends a now db entry db') (hexact : a.conflictCode.isSome) :
    EntryOnRecord a db' := by
  cases h with
  | replayed hhash hfind hmatches hdb =>
    obtain hnone | hsame := hmatches
    · rw [hnone] at hexact
      cases hexact
    · exact ⟨_, entry, hhash, hdb ▸ hfind, hsame⟩
  | appended hhash hfresh hentry hticket hapart hinsert hdb =>
    subst hdb
    have hkey : entry.dedupeKey = a.dedupeKey := by rw [hentry, EntryArgs.row]
    refine ⟨_, entry, hhash, ?_, ?_⟩
    · rw [Table.find?_insert? hinsert, if_pos hkey]
    · rw [hentry]
      exact row_matches ..

/-- The columns of a receipt that its row has been compared by. -/
theorem ReceiptRow.matches_spec {ticketId : Str} (h : row.matches ticketId r = true) :
    row.operationId = r.operationId ∧ row.idempotencyKey = r.idempotencyKey ∧
      row.committedAt = r.committedAt := by
  simp only [ReceiptRow.matches, Bool.and_eq_true, decide_eq_true_eq] at h
  grind

theorem Receives.only_row {ticketId : Str} (h : Receives ticketId r db row db') :
    (db'.receipts.rows.filter fun old =>
      old.idempotencyKey = row.idempotencyKey || old.operationId = row.operationId) = [row] ∧
      row.matches ticketId r = true := by
  cases h with
  | replayed hfilter hmatches hdb =>
    obtain ⟨hoperation, hkey, -⟩ := ReceiptRow.matches_spec hmatches
    rw [hdb, hoperation, hkey]
    exact ⟨hfilter, hmatches⟩
  | recorded hfresh hrow hticket hinsert hdb =>
    subst hdb hrow
    have hold : (db.receipts.rows.filter fun old =>
        old.idempotencyKey = r.idempotencyKey || old.operationId = r.operationId) = [] := by
      rw [List.filter_eq_nil_iff]
      intro old hmem
      simp [hfresh old hmem]
    refine ⟨?_, by simp [ReceiptRow.matches, sameText_refl]⟩
    rw [(Table.insert?_eq_some hinsert).2, List.filter_append, hold]
    simp

theorem Expects.on_record {e : ExpectationArgs} {expectation : Expectation}
    (h : Expects e now db expectation db') : ∃ hash old, contentHash (.obj e.expectedState) = .ok hash ∧
      db'.expectations.find? e.operationId = some old ∧ old.matches e hash = true := by
  cases h with
  | replayed hhash hfind hmatches hdb => exact ⟨_, _, hhash, hdb ▸ hfind, hmatches⟩
  | created hhash hfresh hrow hticket hreceipt hinsert hdb =>
    subst hdb
    have hkey : expectation.operationId = e.operationId := by rw [hrow, ExpectationArgs.row]
    refine ⟨_, expectation, hhash, ?_, ?_⟩
    · rw [Table.find?_insert? hinsert, if_pos hkey]
    · rw [hrow]
      simp [Expectation.matches, ExpectationArgs.row, sameText_refl]

theorem enqueueJob_found {e : EnqueueArgs} {job : DurableJob} {l l' : JobLedger}
    (hplain : approvalJobFields (strip e.jobType) = none)
    (h : enqueueJob e now l = .ok (job, l')) : (∃ row, e.row now = .ok row) ∧
      l'.findKey? (strip e.idempotencyKey) = some job ∧ approvalJobFields job.jobType = none := by
  simp only [enqueueJob, bind_eq_ok] at h
  obtain ⟨row, hrow, l₁, -, h⟩ := h
  have hcolumns : row.jobType = strip e.jobType ∧ row.idempotencyKey = strip e.idempotencyKey := by
    simp only [EnqueueArgs.row, bind_eq_ok, Except.ok.injEq] at hrow
    obtain ⟨_, _, _, _, _, _, _, _, rfl⟩ := hrow
    exact ⟨rfl, rfl⟩
  split at h
  · cases h
  · next persisted hfind =>
    simp only [bind_eq_ok] at h
    obtain ⟨_, hconflict, h⟩ := h
    cases h
    refine ⟨⟨row, hrow⟩, hcolumns.2 ▸ hfind, ?_⟩
    unfold rejectApprovalJobConflict at hconflict
    split_ifs at hconflict with hboth
    · rw [Bool.and_eq_true, Option.isNone_iff_eq_none, Option.isNone_iff_eq_none] at hboth
      exact hboth.2
    · simp only [require_eq_ok, Bool.and_eq_true, decide_eq_true_eq] at hconflict
      rw [hconflict.1.1.1, hcolumns.1, hplain]

omit [PythonText] in
theorem watchdog_plain (o : OutcomeArgs) : approvalJobFields (strip o.watchdog.jobType) = none := by
  change approvalJobFields (strip (text "ticket_watchdog")) = none
  decide +kernel

/-- What `recordEffect` writes is on record, and nothing is lost. -/
theorem recordEffect_onRecord {expectation : Expectation}
    (h : recordEffect o.ticketId o.requestId o.outcome.childOperationId o.expectationId
      o.receiptEntryId (receiptKey o.outcome.childOperationId) r now db =
        .ok ((row, expectation, entry), db')) : EffectOnRecord o r row db' ∧ db.Grows db' := by
  obtain ⟨db₁, db₂, hreceives, hexpects, happends⟩ := recordEffect_spec h
  obtain ⟨honly, hsame⟩ := hreceives.only_row
  have hexpected : db₁.Grows db₂ := hexpects.grows
  have happended : db₂.Grows db' := happends.grows
  simp only [recordEffect, bind_eq_ok] at h
  obtain ⟨⟨row', m₁⟩, hcursor, ⟨expectation', m₂⟩, hcreate, ⟨entry', m₃⟩, -, h⟩ := h
  cases h
  simp only [recordOperationReceiptCursor, bind_eq_ok] at hcursor
  simp only [createExpectationCursor, bind_eq_ok] at hcreate
  obtain ⟨u, hstorable, -⟩ := hcursor
  obtain ⟨-, -, locator, hlocator, -⟩ := hcreate
  obtain ⟨hash, old, hhash, hfind, hmatches⟩ := hexpects.on_record
  refine ⟨⟨⟨u, hstorable⟩, ?_, hsame, ⟨locator, hlocator⟩, ⟨hash, old, hhash, ?_, hmatches⟩,
    happends.onRecord rfl⟩, (hreceives.grows.trans hexpected).trans happended⟩
  · exact happended.receipts _ (hexpected.receipts _ honly)
  · exact happended.expectations _ _ hfind

/-- A recorded outcome is on record, and nothing is lost. -/
theorem recordChildOutcomeAtomic_onRecord
    (h : recordChildOutcomeAtomic o now db = .ok (entry, db')) :
    OnRecord o db' ∧ db.Grows db' := by
  obtain ⟨db₁, db₂, job, jobs, heffect, happends, henqueue, rfl⟩ := recordChildOutcomeAtomic_spec h
  have happended : db₁.Grows db₂ := happends.grows
  have henqueued : db₂.Grows { db₂ with jobs } := enqueueJob_grows henqueue
  have hafter : db₁.Grows { db₂ with jobs } := happended.trans henqueued
  have heffects : (∀ r, o.receipt = some r → ∃ row, EffectOnRecord o r row db₁) ∧ db.Grows db₁ := by
    unfold recordChildEffect at heffect
    cases hreceipt : o.receipt with
    | none =>
      rw [hreceipt] at heffect
      cases heffect
      exact ⟨fun r hr => absurd hr nofun, .refl db⟩
    | some r =>
      rw [hreceipt] at heffect
      simp only [map_eq_ok] at heffect
      obtain ⟨⟨⟨row, expectation, entry'⟩, db₁'⟩, hrecord, rfl⟩ := heffect
      obtain ⟨honrecord, hgrows⟩ := recordEffect_onRecord hrecord
      refine ⟨fun r' hr' => ?_, hgrows⟩
      cases hr'
      exact ⟨row, honrecord⟩
  refine ⟨⟨fun r hr => ?_, ?_, ?_, ?_⟩, heffects.2.trans hafter⟩
  · obtain ⟨row, hrow⟩ := heffects.1 r hr
    exact ⟨row, hrow.grows hafter⟩
  · exact (happends.onRecord (a := o.entry) rfl).grows henqueued
  · exact ⟨now, (enqueueJob_found (watchdog_plain o) henqueue).1⟩
  · exact ⟨job, (enqueueJob_found (watchdog_plain o) henqueue).2⟩

end Records

section Replay

variable [PythonText] {a : EntryArgs} {db : TicketDb} {o : OutcomeArgs} {r : OperationReceipt}
  {row : ReceiptRow}

/-- The same outcome under identifiers of another call. -/
def OutcomeArgs.withIds (o : OutcomeArgs) (expectationId receiptEntryId entryId jobId : Str) :
    OutcomeArgs :=
  { o with expectationId, receiptEntryId, entryId, jobId }

theorem appendEntryCursor_again (h : EntryOnRecord a db) (entryId : Str) (now : Instant) :
    ∃ old, appendEntryCursor { a with entryId } now db = .ok (old, db) := by
  obtain ⟨hash, old, hhash, hfind, hsame⟩ := h
  refine ⟨old, ?_⟩
  have hmatches : old.matches { a with entryId } hash = true := hsame
  unfold appendEntryCursor
  refine bind_eq_ok.2 ⟨hash, hhash, ?_⟩
  dsimp only
  rw [hfind]
  exact bind_eq_ok.2 ⟨(), by rw [hmatches, Bool.or_true]; rfl, rfl⟩

theorem recordOperationReceiptCursor_again (h : EffectOnRecord o r row db) :
    recordOperationReceiptCursor o.ticketId r db = .ok (row, db) := by
  obtain ⟨u, hstorable⟩ := h.storable
  obtain ⟨hoperation, hkey, -⟩ := ReceiptRow.matches_spec h.same
  have hfilter := h.receipt
  rw [hoperation, hkey] at hfilter
  unfold recordOperationReceiptCursor
  refine bind_eq_ok.2 ⟨u, hstorable, ?_⟩
  rw [hfilter]
  exact bind_eq_ok.2 ⟨(), by rw [h.same]; rfl, rfl⟩

theorem createExpectationCursor_again (h : EffectOnRecord o r row db) (expectationId : Str)
    (now : Instant) : ∃ old, createExpectationCursor
      (row.expectation expectationId o.ticketId o.outcome.childOperationId) now db =
        .ok (old, db) := by
  obtain ⟨hash, old, hhash, hfind, hsame⟩ := h.expectation
  obtain ⟨locator, hlocator⟩ := h.locator
  refine ⟨old, ?_⟩
  have hmatches : old.matches (row.expectation expectationId o.ticketId o.outcome.childOperationId)
      hash = true := hsame
  unfold createExpectationCursor
  refine bind_eq_ok.2 ⟨hash, hhash, bind_eq_ok.2 ⟨locator, hlocator, ?_⟩⟩
  have hfind' : db.expectations.find? (row.expectation expectationId o.ticketId
      o.outcome.childOperationId).operationId = some old := hfind
  rw [hfind']
  exact bind_eq_ok.2 ⟨(), by rw [hmatches]; rfl, rfl⟩

theorem recordChildEffect_again (h : OnRecord o db)
    (expectationId receiptEntryId entryId jobId : Str) (now : Instant) :
    recordChildEffect (o.withIds expectationId receiptEntryId entryId jobId) now db = .ok db := by
  unfold recordChildEffect
  cases hreceipt : o.receipt with
  | none =>
    rw [OutcomeArgs.withIds]
    simp only [hreceipt]
  | some r =>
    obtain ⟨row, heffect⟩ := h.effect r hreceipt
    obtain ⟨expectation, hexpectation⟩ := createExpectationCursor_again heffect expectationId now
    obtain ⟨entry, hentry⟩ := appendEntryCursor_again heffect.entry receiptEntryId now
    have hrecord : recordEffect o.ticketId o.requestId o.outcome.childOperationId expectationId
        receiptEntryId (receiptKey o.outcome.childOperationId) r now db =
          .ok ((row, expectation, entry), db) := by
      unfold recordEffect
      exact bind_eq_ok.2 ⟨(row, db), recordOperationReceiptCursor_again heffect, bind_eq_ok.2
        ⟨(expectation, db), hexpectation, bind_eq_ok.2 ⟨(entry, db), hentry, rfl⟩⟩⟩
    rw [OutcomeArgs.withIds]
    simp only [hreceipt]
    rw [hrecord]
    rfl

/-- The row of a watchdog of another call can be stored as well. -/
theorem watchdog_row_again (h : ∃ now row, o.watchdog.row now = .ok row) (now : Instant)
    (expectationId receiptEntryId entryId : Str) {jobId : Str} (hjob : encodable jobId = true) :
    ∃ row, (o.withIds expectationId receiptEntryId entryId jobId).watchdog.row now = .ok row := by
  obtain ⟨now', row, hrow⟩ := h
  simp only [EnqueueArgs.row, bind_eq_ok] at hrow ⊢
  obtain ⟨u, hvalid, s, hdump, c, hclass, u', hbind, -⟩ := hrow
  have htext (t : Str) (ht : Parameter.text t ∈ [Parameter.text (strip o.watchdog.jobType),
      .text (strip o.watchdog.aggregateId), .text (strip o.watchdog.idempotencyKey), .text s]) :
      (Parameter.text t).error? = none := by
    refine error?_text (bindParameters_encodable hbind ?_)
    simp only [List.mem_cons, List.not_mem_nil, or_false] at ht ⊢
    grind
  refine ⟨_, u, hvalid, s, hdump, c, hclass, (), bindParameters_ok fun p hp => ?_, rfl⟩
  simp only [List.mem_cons, List.not_mem_nil, or_false] at hp
  rcases hp with rfl | rfl | rfl | rfl | rfl | rfl | rfl | rfl
  · exact error?_text hjob
  · exact htext _ (by simp [OutcomeArgs.watchdog])
  · exact htext _ (by simp [OutcomeArgs.watchdog, OutcomeArgs.withIds])
  · exact htext _ (by simp [OutcomeArgs.watchdog, OutcomeArgs.withIds])
  · exact htext _ (by simp)
  · exact error?_text (encodable_of_isAscii (isAscii_isoUtc now))
  · rfl
  · rfl

/-- What is on record is recorded again, and only the ledger of jobs may change. -/
theorem recordChildOutcomeAtomic_again (h : OnRecord o db) {jobId : Str}
    (hencodable : encodable jobId = true) (hfresh : db.jobs.find? jobId = none)
    (expectationId receiptEntryId entryId : Str) (now : Instant) :
    ∃ entry db', recordChildOutcomeAtomic (o.withIds expectationId receiptEntryId entryId jobId)
      now db = .ok (entry, db') := by
  obtain ⟨entry, hentry⟩ := appendEntryCursor_again h.entry entryId now
  obtain ⟨row, hrow⟩ :=
    watchdog_row_again h.row now expectationId receiptEntryId entryId hencodable
  obtain ⟨job, hfind, hplain⟩ := h.job
  have hkey : row.idempotencyKey = strip (childWatchdogKey o.outcome.childOperationId) := by
    simp only [EnqueueArgs.row, bind_eq_ok, Except.ok.injEq] at hrow
    obtain ⟨_, _, _, _, _, _, _, _, rfl⟩ := hrow
    rfl
  obtain ⟨⟨job', jobs⟩, henqueue⟩ := (enqueueJob_isOk (watchdog_plain _)).2 ⟨row, hrow, hfresh,
    fun old hold => by
      rw [hkey, hfind, Option.some.injEq] at hold
      exact hold ▸ hplain⟩
  refine ⟨entry, { db with jobs }, ?_⟩
  unfold recordChildOutcomeAtomic
  refine bind_eq_ok.2 ⟨db, recordChildEffect_again h .., bind_eq_ok.2 ⟨(entry, db), hentry,
    bind_eq_ok.2 ⟨(job', { db with jobs }), ?_, rfl⟩⟩⟩
  rw [onJobs, henqueue]
  rfl

end Replay

end HardyAI.Tickets
