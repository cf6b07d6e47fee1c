import HardyAI.Tickets.ClaimedReviews

/-! The watchdogs of a round: each job that the worker has claimed is completed, unless its ticket
is captured while its manifests have failed. -/

open Foundation Foundation.Json Foundation.Program HardyAI.Jobs Relation

namespace HardyAI.Tickets

section Watchdogs

variable {cfg : ReviewConfig} {latest : Instant} {m db' : TicketDb} {id : Str} {t : Ticket}
  {h : History Op.Reply}

/-- What a watchdog may change: its own ticket and the entries of that ticket. -/
structure Watches (id : Str) (db db' : TicketDb) : Prop extends Advances db db' where
  others : ∀ k ≠ id, db'.tickets.find? k = db.tickets.find? k
  entries : ∀ k ≠ id, db'.listEntries k = db.listEntries k
  receipts : db'.receipts = db.receipts

theorem Watches.refl (id : Str) (db : TicketDb) : Watches id db db :=
  ⟨.refl db, fun _ _ => rfl, fun _ _ => rfl, rfl⟩

theorem Watches.trans {db : TicketDb} (hfirst : Watches id db m) (hsecond : Watches id m db') :
    Watches id db db' where
  toAdvances := hfirst.toAdvances.trans hsecond.toAdvances
  others k hk := (hsecond.others k hk).trans (hfirst.others k hk)
  entries k hk := (hsecond.entries k hk).trans (hfirst.entries k hk)
  receipts := hsecond.receipts.trans hfirst.receipts

theorem Watches.updateTicket {a : TicketAssignment} (ht : m.tickets.find? id = some t)
    (hmoves : (a.apply t).status = t.status ∨ t.status.Moves (a.apply t).status) :
    Watches id m (m.updateTicket id a) where
  toAdvances := by
    refine .updateTicket fun t' ht' => ?_
    cases ht.symm.trans ht'
    exact hmoves
  others k hk := find?_updateTicket_of_ne hk
  entries _ _ := rfl
  receipts := rfl

theorem moves_of_watched {s s' : TicketStatus} (hs : watched s = true)
    (hs' : s' = .reconciliationRequired ∨ s' = .executing) : s' = s ∨ s.Moves s' := by
  rcases hs' with rfl | rfl
  · cases s <;> first | exact absurd hs (by decide) | decide
  · cases s <;> first | exact absurd hs (by decide) | decide

variable [PythonText]

/-- The move of a ticket, which ends in the new status. -/
theorem transitionProcess_ends {a : TransitionArgs} (hversion : a.expectedVersion = none)
    (ht : m.tickets.find? a.ticketId = some t)
    (hmoves : a.status = t.status ∨ t.status.Moves a.status) {x : Except PyError (Option Ticket)}
    (hends : Ends (Serve latest) m (transitionProcess a) h x db') :
    ∃ t', x = .ok (some t') ∧ Watches a.ticketId m db' ∧ db'.tickets.find? a.ticketId = some t' ∧
      t'.status = a.status := by
  unfold transitionProcess at hends
  obtain ⟨r, -, hr, hserve⟩ := (ends_raising_perform (Op.transitionTicket a) rfl).1 hends
  obtain ⟨now, rfl, rfl⟩ := serve_transitionTicket hversion ht (hmoves.imp_right And.left) hserve
  refine ⟨_, hr, .updateTicket ht hmoves, ?_, rfl⟩
  rw [find?_updateTicket_self, ht]
  rfl

/-- A move that the table forbids raises. -/
theorem transitionProcess_refused {a : TransitionArgs} (ht : m.tickets.find? a.ticketId = some t)
    (hne : a.status ≠ t.status) (hnot : ¬t.status.Allows a.status)
    {x : Except PyError (Option Ticket)}
    (hends : Ends (Serve latest) m (transitionProcess a) h x db') : ∃ e, x = .error e := by
  unfold transitionProcess at hends
  obtain ⟨r, -, hr, now, -, hcommits⟩ :=
    (ends_raising_perform (Op.transitionTicket a) rfl).1 hends
  obtain ⟨rfl, -⟩ := hcommits.error (transitionTicket_refused ht hne hnot)
  exact ⟨_, hr⟩

/-- How a watchdog ends that finds no obstacle: its ticket is no longer captured. -/
def Watched (id : Str) (m db' : TicketDb) (x : Except PyError WorkerResult) : Prop :=
  (∃ result, x = .ok result) ∧ Watches id m db' ∧
    ∃ t, db'.tickets.find? id = some t ∧ t.status ≠ .captured

theorem reconcileTicket_ends (ht : m.tickets.find? id = some t) (hwatched : watched t.status = true)
    {reason : Str} {x : Except PyError WorkerResult}
    (hends : Ends (Serve latest) m (reconcileTicket id reason) h x db') : Watched id m db' x := by
  rcases ends_bind.1 hends with ⟨_, h₁, h₂, m₁, rfl, hmoved, hend⟩ | ⟨e, hmoved, -⟩
  · obtain ⟨-, rfl, rfl⟩ := ends_pure.1 hend
    obtain ⟨t', -, hwatches, ht', hstatus⟩ :=
      transitionProcess_ends rfl ht (moves_of_watched hwatched (.inl rfl)) hmoved
    have hreconciled : t'.status = .reconciliationRequired := hstatus
    exact ⟨⟨_, rfl⟩, hwatches, t', ht', by rw [hreconciled]; decide⟩
  · obtain ⟨_, hx, -⟩ :=
      transitionProcess_ends rfl ht (moves_of_watched hwatched (.inl rfl)) hmoved
    cases hx

section Completions

theorem Appends.listEntries {a : EntryArgs} {now : Instant} {entry : TicketEntry}
    (happend : Appends a now m entry db') {k : Str} (hk : k ≠ a.ticketId) :
    db'.listEntries k = m.listEntries k := by
  cases happend with
  | replayed _ _ _ hdb => rw [hdb]
  | appended _ _ hentry _ _ hinsert hdb =>
    have hother : ¬entry.ticketId = k := by
      rw [hentry]
      exact fun hsame => hk hsame.symm
    rw [hdb, TicketDb.listEntries, (Table.insert?_eq_some hinsert).2, List.filter_append]
    simp [hother, TicketDb.listEntries]

/-- The completion of a stored receipt adds to its own ticket only. -/
theorem recordEffect_watches {requestId operationId expectationId entryId entryKey : Str}
    {r : OperationReceipt} {now : Instant} {p : ReceiptRow × Expectation × TicketEntry}
    (hrow : ∃ row ∈ m.receipts.rows, row.operationId = r.operationId)
    (hrun : recordEffect id requestId operationId expectationId entryId entryKey r now m =
      .ok (p, db')) : Watches id m db' := by
  obtain ⟨htickets, hjobs⟩ := recordEffect_frame hrun
  obtain ⟨db₁, db₂, hreceives, hexpects, happends⟩ := recordEffect_spec hrun
  have hdb₁ : db₁ = m := by
    cases hreceives with
    | replayed _ _ hdb => exact hdb
    | recorded hfresh =>
      obtain ⟨row, hmem, hsame⟩ := hrow
      exact absurd hsame (hfresh row hmem).2
  obtain ⟨expectations, hdb₂⟩ := hexpects.frame
  refine ⟨.of_frame htickets hjobs, fun k _ => by rw [htickets], fun k hk => ?_, ?_⟩
  · rw [happends.listEntries hk, hdb₂, hdb₁]
    rfl
  · obtain ⟨entries, rfl⟩ := happends.frame
    rw [hdb₂, hdb₁]

theorem recordCompletions_ends {requestId : Str} {receipts : List ReceiptRow}
    (hticket : (m.tickets.find? id).isSome = true)
    (hrows : ∀ r ∈ receipts, r ∈ m.receipts.rows) {x : Except PyError Unit}
    (hends : Ends (Serve latest) m (recordCompletions id requestId receipts) h x db') :
    Watches id m db' ∧ db'.tickets = m.tickets ∧ ∀ e, x = .error e → caught e = true := by
  induction receipts generalizing m h with
  | nil =>
    obtain ⟨-, rfl, rfl⟩ := ends_pure.1 hends
    exact ⟨.refl _ _, rfl, fun e he => by cases he⟩
  | cons receipt rest ih =>
    rcases ends_bind.1 hends with ⟨expectationId, h₁, h₂, m₁, rfl, hnew₁, hrest₁⟩ | ⟨e, hnew₁, -⟩
    case inr =>
      obtain ⟨_, -, hreply, -⟩ := ends_perform.1 hnew₁
      cases hreply
    obtain ⟨_, -, hreply, rfl, hfresh₁⟩ := ends_perform.1 hnew₁
    cases hreply
    rcases ends_bind.1 hrest₁ with ⟨entryId, h₃, h₄, m₂, rfl, hnew₂, hrest₂⟩ | ⟨e, hnew₂, -⟩
    case inr =>
      obtain ⟨_, -, hreply, -⟩ := ends_perform.1 hnew₂
      cases hreply
    obtain ⟨_, -, hreply, rfl, hfresh₂⟩ := ends_perform.1 hnew₂
    cases hreply
    have hmem := hrows receipt List.mem_cons_self
    rcases ends_bind.1 hrest₂ with ⟨p, h₅, h₆, m₃, rfl, hrecorded, hrest₃⟩ | ⟨e, hfailed, rfl⟩
    · obtain ⟨r, -, hr, now, -, hcommits⟩ :=
        (ends_raising_perform (Op.recordOperationCompletion _) rfl).1 hrecorded
      rcases hcommits.cases with ⟨q, rfl, hrun⟩ | ⟨e, rfl, -, -⟩
      · have hwatches : Watches id m₂ m₃ := recordEffect_watches ⟨receipt, hmem, rfl⟩ hrun
        have htickets : m₃.tickets = m₂.tickets := (recordEffect_frame hrun).1
        obtain ⟨hwatches', htickets', hcaught⟩ := ih (htickets ▸ hticket) (fun r hr => by
          rw [hwatches.receipts]
          exact hrows r (List.mem_cons_of_mem _ hr)) hrest₃
        exact ⟨hwatches.trans hwatches', htickets'.trans htickets, hcaught⟩
      · cases hr
    · obtain ⟨r, -, hr, now, -, hcommits⟩ :=
        (ends_raising_perform (Op.recordOperationCompletion _) rfl).1 hfailed
      rcases hcommits.cases with ⟨q, rfl, hrun⟩ | ⟨e', rfl, rfl, hrun⟩
      · cases hr
      · cases hr
        refine ⟨.refl _ _, rfl, fun e he => ?_⟩
        cases he
        exact (caught_recordOperationCompletionAtomic hticket ⟨receipt, hmem, rfl⟩
          hfresh₁.expectation hfresh₂.entry).holds _ hrun

end Completions

section Scheduling

omit [PythonText] in
theorem hasLongIntItems_eq_false {items : List Json} (h : ∀ x ∈ items, x.hasLongInt = false) :
    hasLongIntItems items = false := by
  induction items with
  | nil => rfl
  | cons x xs ih =>
    rw [hasLongIntItems, h x List.mem_cons_self, ih fun y hy => h y (List.mem_cons_of_mem _ hy)]
    rfl

/-- The hash of a list that holds no integer that is too long. -/
theorem contentHash_arr (hgranted : Granted cfg latest) {items : List Json}
    (h : ∀ x ∈ items, x.hasLongInt = false) :
    ∃ hash, contentHash (.arr items) = .ok hash ∧ encodable hash = true := by
  have hshort : (Json.arr items).hasLongInt = false := hasLongIntItems_eq_false h
  have hascii : isAscii ((Json.arr items).render true) = true := isAscii_render hgranted.float _
  have hbytes : utf8 ((Json.arr items).render true) =
      .ok (((Json.arr items).render true).flatMap utf8Char) := by
    rw [utf8, if_pos (encodable_of_isAscii hascii)]
  have hdump : hashedText (.arr items) = .ok ((Json.arr items).render true) := by
    rw [hashedText, dump, hshort]
    · rfl
    · exact fun s hs => by cases hs
  refine ⟨Sha256.hexdigest (((Json.arr items).render true).flatMap utf8Char), ?_,
    encodable_of_isAscii (isAscii_hexdigest _)⟩
  simp only [contentHash, bind_eq_ok]
  exact ⟨_, hdump, _, hbytes, rfl⟩

omit [PythonText] in
theorem optionalText_short (s : Option Str) : (optionalText s).hasLongInt = false := by
  cases s <;> rfl

omit [PythonText] in
theorem storable_review {a : ScheduleArgs} {due : Instant} (hjob : encodable a.jobId = true)
    (hticket : encodable a.ticketId = true) (hrevision : encodable a.sourceActionRevision = true)
    (hattempts : max 1 a.maxAttempts < 2 ^ 63) : Storable (a.job due) where
  id := hjob
  jobType := by
    have htype : encodable (strip (text "ticket_review")) = true := by decide
    exact htype
  plain := by
    have hnone : approvalJobFields (strip (text "ticket_review")) = none := by decide +kernel
    exact hnone
  aggregate := hticket
  key := by
    have hmarks : encodable (text "ticket-review:") = true ∧ encodable (text ":") = true := by
      decide
    simp only [ScheduleArgs.job, reviewKey, encodable_append, hmarks.1, hmarks.2, hticket,
      hrevision, Bool.and_self]
  unreserved := by
    have hhead : text "ticket-review:" = 0x74 :: (text "ticket-review:").tail := by decide
    rw [ScheduleArgs.job, reviewKey, hhead]
    exact ⟨0x74, _, rfl, by decide, by decide⟩
  payload := by simp only [ScheduleArgs.job, hasLongInt, hasLongIntFields, Bool.or_false]
  available := by
    intro s hs
    cases hs
    exact encodable_of_isAscii (isAscii_isoUtc due)
  attempts := hattempts
  resourceClass := rfl
  deadline := rfl

/-- The schedule of a review of a ticket in execution. -/
theorem serve_scheduleVerification (hgranted : Granted cfg latest) (hstored : Stored m)
    {a : ScheduleArgs} (ht : m.tickets.find? a.ticketId = some t) (hexecuting : t.status = .executing)
    (hdelay : a.delaySeconds = cfg.reviewDelaySeconds) (hcompleted : a.completedAt = none)
    (hreview : ∀ due, Storable (a.job due)) (hfresh : m.jobs.find? a.jobId = none)
    {r : Except PyError DurableJob} (hserve : Serve latest m (.scheduleVerification a) r db') :
    (∃ job, r = .ok job) ∧ Watches a.ticketId m db' ∧
      ∃ t', db'.tickets.find? a.ticketId = some t' ∧ t'.status ≠ .captured := by
  obtain ⟨now, hnow, hcommits⟩ := hserve
  obtain ⟨due, hdue⟩ := hgranted.delay now hnow
  obtain ⟨⟨job, jobs⟩, hqueued⟩ :=
    @Storable.accepted _ _ _ now hgranted.float (hreview due) hstored.jobs hfresh
  let assignment := verificationScheduled (isoUtc now) (isoUtc due) a.sourceActionRevision
  have hrun : scheduleVerification a now m =
      .ok (job, { m.updateTicket a.ticketId assignment with jobs }) := by
    simp only [scheduleVerification, hcompleted, hdelay, Option.getD_none, bind_eq_ok]
    refine ⟨due, hdue, ?_⟩
    rw [onJobs, TicketDb.updateTicket, hqueued]
    rfl
  obtain ⟨rfl, rfl⟩ := hcommits.ok hrun
  have hmoves : t.status.Moves .verificationPending := by
    rw [hexecuting]
    decide
  have hupdated : Watches a.ticketId m (m.updateTicket a.ticketId assignment) :=
    .updateTicket ht (.inr hmoves)
  have hqueue : Watches a.ticketId (m.updateTicket a.ticketId assignment)
      { m.updateTicket a.ticketId assignment with jobs } :=
    ⟨.enqueue hqueued, fun _ _ => rfl, fun _ _ => rfl, rfl⟩
  have hpending : (assignment.apply t).status ≠ .captured := TicketStatus.noConfusion
  refine ⟨⟨job, rfl⟩, hupdated.trans hqueue, assignment.apply t, ?_, hpending⟩
  have hself := @find?_updateTicket_self m a.ticketId assignment
  rwa [ht] at hself

/-- The part of a watchdog that follows the repair. -/
theorem scheduleFinalized_ends (hgranted : Granted cfg latest) (hstored : Stored m)
    (ht : m.tickets.find? id = some t) (hwatched : watched t.status = true)
    {receipts : List ReceiptRow} (hrows : ∀ r ∈ receipts, r ∈ m.receipts.rows)
    {x : Except PyError WorkerResult}
    (hends : Ends (Serve latest) m (scheduleFinalized cfg id receipts) h x db') :
    Watched id m db' x := by
  have hid : encodable id = true := by
    have hmem := hstored.tickets t (Table.mem_of_find? ht)
    rwa [Table.key_of_find? ht] at hmem
  have heffects : ∀ r ∈ receipts, (Json.obj r.expectedEffect).hasLongInt = false :=
    fun r hr => hstored.receipts r (hrows r hr)
  have hrevisions : ∀ x ∈ receipts.map ReceiptRow.revision, x.hasLongInt = false := by
    intro x hx
    obtain ⟨r, hr, rfl⟩ := List.mem_map.1 hx
    have heffect : hasLongIntFields r.expectedEffect = false := heffects r hr
    simp [ReceiptRow.revision, hasLongInt, hasLongIntFields, optionalText_short, heffect]
  have hexpectations : ∀ x ∈ receipts.map fun r => Json.obj r.expectedEffect,
      x.hasLongInt = false := by
    intro x hx
    obtain ⟨r, hr, rfl⟩ := List.mem_map.1 hx
    exact heffects r hr
  obtain ⟨revision, hrevision, hrevisionText⟩ := contentHash_arr hgranted hrevisions
  obtain ⟨expected, hexpected, -⟩ := contentHash_arr hgranted hexpectations
  rcases ends_bind.1 hends with ⟨expectations, h₁, h₂, m₁, rfl, hlisted, hrest₁⟩ | ⟨e, hlisted, -⟩
  case inr =>
    obtain ⟨_, -, hreply, -⟩ := ends_perform.1 hlisted
    cases hreply
  obtain ⟨_, -, hreply, rfl, -⟩ := ends_perform.1 hlisted
  cases hreply
  rw [hrevision, hexpected] at hrest₁
  split at hrest₁
  · exact reconcileTicket_ends ht hwatched hrest₁
  rcases ends_bind.1 hrest₁ with ⟨_, h₃, h₄, m₂, rfl, hread, hrest₂⟩ | ⟨e, hread, -⟩
  case inr => cases (ends_ofExcept.1 hread).2.1
  obtain ⟨-, hsame, rfl⟩ := ends_ofExcept.1 hread
  cases hsame
  rcases ends_bind.1 hrest₂ with ⟨_, h₅, h₆, m₃, rfl, hread', hrest₃⟩ | ⟨e, hread', -⟩
  case inr => cases (ends_ofExcept.1 hread').2.1
  obtain ⟨-, hsame, rfl⟩ := ends_ofExcept.1 hread'
  cases hsame
  have hmoves := moves_of_watched hwatched (.inr rfl)
  rcases ends_bind.1 hrest₃ with ⟨_, h₇, h₈, m₄, rfl, hmoved, hrest₄⟩ | ⟨e, hmoved, -⟩
  case inr =>
    obtain ⟨_, hx, -⟩ := transitionProcess_ends rfl ht hmoves hmoved
    cases hx
  obtain ⟨t', -, hwatches, ht', hexecuting⟩ := transitionProcess_ends rfl ht hmoves hmoved
  have hstored' : Stored m₄ := ends_stored hmoved hstored
  rcases ends_bind.1 hrest₄ with ⟨jobId, h₉, h₁₀, m₅, rfl, hnew, hrest₅⟩ | ⟨e, hnew, -⟩
  case inr =>
    obtain ⟨_, -, hreply, -⟩ := ends_perform.1 hnew
    cases hreply
  obtain ⟨_, -, hreply, rfl, hfresh⟩ := ends_perform.1 hnew
  cases hreply
  have hreview (due : Instant) : Storable (ScheduleArgs.job
      ⟨id, revision, cfg.reviewDelaySeconds, cfg.reviewMaxAttempts, none, jobId⟩ due) :=
    storable_review hfresh.text hid hrevisionText hgranted.attempts
  rcases ends_bind.1 hrest₅ with ⟨job, h₁₁, h₁₂, m₆, rfl, hqueued, hend⟩ | ⟨e, hqueued, -⟩
  · obtain ⟨-, rfl, rfl⟩ := ends_pure.1 hend
    obtain ⟨r, -, -, hserve⟩ := (ends_raising_perform (Op.scheduleVerification _) rfl).1 hqueued
    obtain ⟨-, hwatches', hleft⟩ := serve_scheduleVerification hgranted hstored' ht' hexecuting rfl
      rfl hreview hfresh.job hserve
    exact ⟨⟨_, rfl⟩, hwatches.trans hwatches', hleft⟩
  · obtain ⟨r, -, hr, hserve⟩ := (ends_raising_perform (Op.scheduleVerification _) rfl).1 hqueued
    obtain ⟨⟨job, rfl⟩, -⟩ := serve_scheduleVerification hgranted hstored' ht' hexecuting rfl
      rfl hreview hfresh.job hserve
    cases hr

end Scheduling

section Reduction

theorem attempt_ends {α : Type} {p : Process α} {x : Except PyError (Option α)}
    (hends : Ends (Serve latest) m (attempt p) h x db') :
    (∃ a, Ends (Serve latest) m p h (.ok a) db' ∧ x = .ok (some a)) ∨
      (∃ e, caught e = true ∧ x = .ok none ∧ Ends (Serve latest) m p h (.error e) db') ∨
      ∃ e, caught e = false ∧ x = .error e ∧ Ends (Serve latest) m p h (.error e) db' := by
  rcases ends_handle hends with ⟨a, hdone, rfl⟩ | ⟨e, h₁, h₂, m₁, rfl, hfailed, hcaught⟩
  · rcases ends_bind.1 hdone with ⟨b, h₁, h₂, m₁, rfl, hfirst, hpure⟩ | ⟨e, -, hx⟩
    · obtain ⟨rfl, hsome, rfl⟩ := ends_pure.1 hpure
      cases hsome
      exact .inl ⟨b, by simpa using hfirst, rfl⟩
    · cases hx
  · rcases ends_bind.1 hfailed with ⟨b, h₃, h₄, m₂, rfl, -, hpure⟩ | ⟨e', hfirst, hsame⟩
    · cases (ends_pure.1 hpure).2.1
    · cases hsame
      cases hcatch : caught e with
      | true =>
        rw [hcatch, if_pos rfl] at hcaught
        obtain ⟨rfl, rfl, rfl⟩ := ends_pure.1 hcaught
        exact .inr (.inl ⟨e, hcatch, rfl, by simpa using hfirst⟩)
      | false =>
        rw [hcatch, if_neg Bool.false_ne_true] at hcaught
        obtain ⟨⟨rfl, rfl⟩, rfl⟩ := hcaught
        exact .inr (.inr ⟨e, hcatch, rfl, by simpa using hfirst⟩)

/-- The reducer reads the state and changes nothing. -/
theorem reduceProcess_ends {x : Except PyError EffectAggregate}
    (hends : Ends (Serve latest) m (reduceProcess id) h x db') :
    db' = m ∧ x = reduceTicketEffects m id := by
  rcases ends_bind.1 hends with ⟨manifests, h₁, h₂, m₁, rfl, hlisted₁, hrest₁⟩ | ⟨e, hlisted₁, -⟩
  case inr =>
    obtain ⟨_, -, hreply, -⟩ := ends_perform.1 hlisted₁
    cases hreply
  obtain ⟨_, -, hreply, rfl, rfl⟩ := ends_perform.1 hlisted₁
  cases hreply
  split at hrest₁
  · next hnone =>
    obtain ⟨-, rfl, rfl⟩ := ends_pure.1 hrest₁
    exact ⟨rfl, by rw [reduceTicketEffects, reduceEffects, if_pos hnone]⟩
  rcases ends_bind.1 hrest₁ with ⟨entries, h₃, h₄, m₂, rfl, hlisted₂, hrest₂⟩ | ⟨e, hlisted₂, -⟩
  case inr =>
    obtain ⟨_, -, hreply, -⟩ := ends_perform.1 hlisted₂
    cases hreply
  obtain ⟨_, -, hreply, rfl, rfl⟩ := ends_perform.1 hlisted₂
  cases hreply
  rcases ends_bind.1 hrest₂ with ⟨receipts, h₅, h₆, m₃, rfl, hlisted₃, hend⟩ | ⟨e, hlisted₃, -⟩
  case inr =>
    obtain ⟨_, -, hreply, -⟩ := ends_perform.1 hlisted₃
    cases hreply
  obtain ⟨_, -, hreply, rfl, rfl⟩ := ends_perform.1 hlisted₃
  cases hreply
  obtain ⟨-, rfl, rfl⟩ := ends_ofExcept.1 hend
  exact ⟨rfl, rfl⟩

/-- The ticket is captured, and its manifests reduce to a failure. -/
def Doomed (db : TicketDb) (id : Str) : Prop :=
  ∃ t a, db.tickets.find? id = some t ∧ t.status = .captured ∧
    db.listExecutionManifests id ≠ [] ∧ reduceTicketEffects db id = .ok a ∧ a.status = .failed

theorem scheduleFromReceipts_ends (hgranted : Granted cfg latest) (hstored : Stored m)
    (ht : m.tickets.find? id = some t) (hwatched : watched t.status = true)
    {x : Except PyError WorkerResult}
    (hends : Ends (Serve latest) m (scheduleFromReceipts cfg id) h x db') :
    Watched id m db' x := by
  rcases ends_bind.1 hends with ⟨receipts, h₁, h₂, m₁, rfl, hlisted, hrest⟩ | ⟨e, hlisted, -⟩
  case inr =>
    obtain ⟨_, -, hreply, -⟩ := ends_perform.1 hlisted
    cases hreply
  obtain ⟨_, -, hreply, rfl, rfl⟩ := ends_perform.1 hlisted
  cases hreply
  exact scheduleFinalized_ends hgranted hstored ht hwatched
    (fun r hr => (List.mem_filter.1 hr).1) hrest

theorem scheduleRepaired_ends (hgranted : Granted cfg latest) (hstored : Stored m)
    (ht : m.tickets.find? id = some t) (hwatched : watched t.status = true)
    {x : Except PyError WorkerResult}
    (hends : Ends (Serve latest) m (scheduleRepaired cfg id) h x db') : Watched id m db' x := by
  rcases ends_bind.1 hends with ⟨receipts, h₁, h₂, m₁, rfl, hlisted, hrest₁⟩ | ⟨e, hlisted, -⟩
  case inr =>
    obtain ⟨_, -, hreply, -⟩ := ends_perform.1 hlisted
    cases hreply
  obtain ⟨_, -, hreply, rfl, rfl⟩ := ends_perform.1 hlisted
  cases hreply
  rcases ends_bind.1 hrest₁ with ⟨ticket, h₃, h₄, m₂, rfl, hread, hrest₂⟩ | ⟨e, hread, -⟩
  case inr =>
    obtain ⟨_, -, hreply, -⟩ := ends_perform.1 hread
    cases hreply
  obtain ⟨_, -, hreply, rfl, rfl⟩ := ends_perform.1 hread
  cases hreply
  have hrows : ∀ r ∈ m₂.listReceipts id, r ∈ m₂.receipts.rows :=
    fun r hr => (List.mem_filter.1 hr).1
  have hticket : (m₂.tickets.find? id).isSome = true := by
    rw [ht]
    rfl
  rcases ends_bind.1 hrest₂ with ⟨done, h₅, h₆, m₃, rfl, hattempt, hend⟩ | ⟨e, hattempt, rfl⟩
  · have hstored' : Stored m₃ := ends_stored hattempt hstored
    have hfinish (hwatches : Watches id m₂ m₃) (hwatched' : Watched id m₃ db' x) :
        Watched id m₂ db' x :=
      ⟨hwatched'.1, hwatches.trans hwatched'.2.1, hwatched'.2.2⟩
    rcases attempt_ends hattempt with ⟨a, hcompleted, hsome⟩ | ⟨e, -, hnone, hfailed⟩ | ⟨e, -, hx, -⟩
    · cases hsome
      obtain ⟨hwatches, htickets, -⟩ := recordCompletions_ends hticket hrows hcompleted
      refine hfinish hwatches (scheduleFinalized_ends hgranted hstored' (htickets ▸ ht) hwatched
        (fun r hr => ?_) hend)
      rw [hwatches.receipts]
      exact hrows r hr
    · cases hnone
      obtain ⟨hwatches, htickets, -⟩ := recordCompletions_ends hticket hrows hfailed
      exact hfinish hwatches (reconcileTicket_ends (htickets ▸ ht) hwatched hend)
    · cases hx
  · rcases attempt_ends hattempt with ⟨a, -, hx⟩ | ⟨e', -, hx, -⟩ | ⟨e', huncaught, -, hfailed⟩
    · cases hx
    · cases hx
    · obtain ⟨-, -, hcaught⟩ := recordCompletions_ends hticket hrows hfailed
      rw [hcaught e' rfl] at huncaught
      cases huncaught

theorem reduceWatchdog_ends (hgranted : Granted cfg latest) (hstored : Stored m)
    (ht : m.tickets.find? id = some t) (hwatched : watched t.status = true)
    (hmanifests : m.listExecutionManifests id ≠ []) {x : Except PyError WorkerResult}
    (hends : Ends (Serve latest) m (reduceWatchdog cfg id) h x db') :
    Doomed m id ∧ (∃ e, x = .error e) ∨ ¬Doomed m id ∧ Watched id m db' x := by
  rcases ends_bind.1 hends with ⟨reduced, h₁, h₂, m₁, rfl, hattempt, hend⟩ | ⟨e, hattempt, -⟩
  · rcases attempt_ends hattempt with ⟨a, hreduced, hsome⟩ | ⟨e, -, hnone, hfailed⟩ | ⟨e, -, hx, -⟩
    · cases hsome
      obtain ⟨rfl, hreduce⟩ := reduceProcess_ends hreduced
      dsimp only at hend
      split at hend
      · next hcompleted =>
        refine .inr ⟨?_, scheduleFromReceipts_ends hgranted hstored ht hwatched hend⟩
        rintro ⟨t', a', -, -, -, hreduce', hfailed⟩
        rw [← hreduce, Except.ok.injEq] at hreduce'
        rw [← hreduce', hcompleted] at hfailed
        cases hfailed
      · by_cases hdoomed : Doomed m₁ id
        · refine .inl ⟨hdoomed, ?_⟩
          obtain ⟨t', a', ht', hcaptured, -, hreduce', hfailed⟩ := hdoomed
          rw [← hreduce, Except.ok.injEq] at hreduce'
          cases ht.symm.trans ht'
          have htarget : watchdogTarget a.status = .escalated := by
            rw [hreduce', hfailed]
            rfl
          rw [htarget] at hend
          rcases ends_bind.1 hend with ⟨b, h₃, h₄, m₂, rfl, hmoved, -⟩ | ⟨e, -, rfl⟩
          · have hne : .escalated ≠ t.status := by rw [hcaptured]; decide
            have hnot : ¬t.status.Allows .escalated := by rw [hcaptured]; decide
            obtain ⟨e, hx⟩ := transitionProcess_refused ht hne hnot hmoved
            cases hx
          · exact ⟨e, rfl⟩
        · refine .inr ⟨hdoomed, ?_⟩
          have hmoves : watchdogTarget a.status = t.status ∨
              t.status.Moves (watchdogTarget a.status) := by
            unfold watchdogTarget
            split
            · next hfailed =>
              have hlate : t.status ≠ .captured := fun hcaptured =>
                hdoomed ⟨t, a, ht, hcaptured, hmanifests, hreduce.symm, hfailed⟩
              cases hstatus : t.status <;> rw [hstatus] at hwatched hlate <;>
                first | exact absurd hwatched (by decide) | exact absurd rfl hlate | decide
            · exact moves_of_watched hwatched (.inl rfl)
          rcases ends_bind.1 hend with ⟨b, h₃, h₄, m₂, rfl, hmoved, hpure⟩ | ⟨e, hmoved, -⟩
          · obtain ⟨-, rfl, rfl⟩ := ends_pure.1 hpure
            obtain ⟨t', -, hwatches, ht', hstatus⟩ := transitionProcess_ends rfl ht hmoves hmoved
            refine ⟨⟨_, rfl⟩, hwatches, t', ht', ?_⟩
            have htarget : t'.status = watchdogTarget a.status := hstatus
            rw [htarget]
            unfold watchdogTarget
            split <;> decide
          · obtain ⟨_, hx, -⟩ := transitionProcess_ends rfl ht hmoves hmoved
            cases hx
    · cases hnone
      obtain ⟨rfl, hreduce⟩ := reduceProcess_ends hfailed
      refine .inr ⟨?_, reconcileTicket_ends ht hwatched hend⟩
      rintro ⟨t', a', -, -, -, hreduce', -⟩
      rw [← hreduce] at hreduce'
      cases hreduce'
    · cases hx
  · rcases attempt_ends hattempt with ⟨a, -, hx⟩ | ⟨e', -, hx, -⟩ | ⟨e', huncaught, -, hfailed⟩
    · cases hx
    · cases hx
    · obtain ⟨-, hreduce⟩ := reduceProcess_ends hfailed
      rw [(caught_reduceEffects _ _ _).holds e' hreduce.symm] at huncaught
      cases huncaught

end Reduction

section Batch

variable {job : DurableJob}

omit [PythonText] in
theorem TicketDb.listExecutionManifests_eq (db : TicketDb) (k : Str) :
    db.listExecutionManifests k =
      (db.listEntries k).filter fun e => e.entryType = .executionManifest := by
  simp only [TicketDb.listExecutionManifests, TicketDb.listEntries, List.filter_filter]
  exact List.filter_congr fun e _ => Bool.and_comm ..

/-- A doom rests on the ticket, its entries and the receipts. -/
theorem doomed_congr {k : Str} (hticket : db'.tickets.find? k = m.tickets.find? k)
    (hentries : db'.listEntries k = m.listEntries k) (hreceipts : db'.receipts = m.receipts) :
    Doomed db' k ↔ Doomed m k := by
  have hmanifests : db'.listExecutionManifests k = m.listExecutionManifests k := by
    rw [TicketDb.listExecutionManifests_eq, hentries, TicketDb.listExecutionManifests_eq]
  have hlisted : db'.listReceipts k = m.listReceipts k := by
    rw [TicketDb.listReceipts, hreceipts, TicketDb.listReceipts]
  simp only [Doomed, reduceTicketEffects, hticket, hmanifests, hentries, hlisted]

theorem not_doomed {t : Ticket} (ht : m.tickets.find? id = some t) (hlate : t.status ≠ .captured) :
    ¬Doomed m id := by
  rintro ⟨t', a, ht', hcaptured, -⟩
  cases ht.symm.trans ht'
  exact hlate hcaptured

/-- What a watchdog does, whether or not its ticket has a manifest. -/
theorem watchTicket_ends (hgranted : Granted cfg latest) (hstored : Stored m)
    {x : Except PyError WorkerResult}
    (hends : Ends (Serve latest) m (watchTicket cfg id (m.tickets.find? id)) h x db') :
    Doomed m id ∧ (∃ e, x = .error e) ∨
      ¬Doomed m id ∧ (∃ result, x = .ok result) ∧ Watches id m db' ∧ ¬Doomed db' id := by
  have hclear {t : Ticket} (ht : m.tickets.find? id = some t) (hlate : t.status ≠ .captured)
      (hwatched : Watched id m db' x) : ¬Doomed m id ∧ (∃ result, x = .ok result) ∧
      Watches id m db' ∧ ¬Doomed db' id := by
    obtain ⟨hok, hwatches, t', ht', hlate'⟩ := hwatched
    exact ⟨not_doomed ht hlate, hok, hwatches, not_doomed ht' hlate'⟩
  cases hticket : m.tickets.find? id with
  | none =>
    rw [hticket] at hends
    obtain ⟨-, rfl, rfl⟩ := ends_pure.1 hends
    have hnot : ¬Doomed db' id := by
      rintro ⟨t', a, ht', -⟩
      rw [hticket] at ht'
      cases ht'
    exact .inr ⟨hnot, ⟨_, rfl⟩, .refl _ _, hnot⟩
  | some t =>
    rw [hticket] at hends
    simp only [watchTicket] at hends
    split at hends
    case isFalse hunwatched =>
      obtain ⟨-, rfl, rfl⟩ := ends_pure.1 hends
      have hlate : t.status ≠ .captured := by
        intro hcaptured
        rw [hcaptured] at hunwatched
        exact hunwatched (by decide)
      exact .inr ⟨not_doomed hticket hlate, ⟨_, rfl⟩, .refl _ _, not_doomed hticket hlate⟩
    next hwatched =>
    rcases ends_bind.1 hends with ⟨manifests, h₁, h₂, m₁, rfl, hlisted, hrest⟩ | ⟨e, hlisted, -⟩
    case inr =>
      obtain ⟨_, -, hreply, -⟩ := ends_perform.1 hlisted
      cases hreply
    obtain ⟨_, -, hreply, rfl, rfl⟩ := ends_perform.1 hlisted
    cases hreply
    cases hmanifests : m₁.listExecutionManifests id with
    | cons entry rest =>
      rw [hmanifests] at hrest
      rcases reduceWatchdog_ends hgranted hstored hticket hwatched
        (by rw [hmanifests]; exact List.cons_ne_nil _ _) hrest with hdoomed | ⟨hnot, hok⟩
      · exact .inl hdoomed
      · obtain ⟨hok, hwatches, t', ht', hlate'⟩ := hok
        exact .inr ⟨hnot, hok, hwatches, not_doomed ht' hlate'⟩
    | nil =>
      rw [hmanifests] at hrest
      have hnot : ¬Doomed m₁ id := by
        rintro ⟨_, _, -, -, hsome, -⟩
        exact hsome hmanifests
      have hfinish (hwatched' : Watched id m₁ db' x) : ¬Doomed m₁ id ∧
          (∃ result, x = .ok result) ∧ Watches id m₁ db' ∧ ¬Doomed db' id := by
        obtain ⟨hok, hwatches, t', ht', hlate'⟩ := hwatched'
        exact ⟨hnot, hok, hwatches, not_doomed ht' hlate'⟩
      simp only [receiptWatchdog] at hrest
      split at hrest
      case isFalse hlate =>
        obtain ⟨-, rfl, rfl⟩ := ends_pure.1 hrest
        exact .inr ⟨hnot, ⟨_, rfl⟩, .refl _ _, hnot⟩
      rcases ends_bind.1 hrest with ⟨receipts, h₃, h₄, m₂, rfl, hlisted', hrest'⟩ |
        ⟨e, hlisted', -⟩
      case inr =>
        obtain ⟨_, -, hreply, -⟩ := ends_perform.1 hlisted'
        cases hreply
      obtain ⟨_, -, hreply, rfl, rfl⟩ := ends_perform.1 hlisted'
      cases hreply
      cases hreceipts : m₂.listReceipts id with
      | nil =>
        rw [hreceipts] at hrest'
        exact .inr (hfinish (reconcileTicket_ends hticket hwatched hrest'))
      | cons receipt rest =>
        rw [hreceipts] at hrest'
        exact .inr (hfinish (scheduleRepaired_ends hgranted hstored hticket hwatched hrest'))

/-- The ticket of the job keeps its watchdog from ending. -/
def DoomedJob (cfg : ReviewConfig) (db : TicketDb) (job : DurableJob) : Prop :=
  ∃ id, jobTicketId cfg job = .ok id ∧ Doomed db id

theorem runWatchdog_ends (hgranted : Granted cfg latest) (hstored : Stored m)
    (hleased : Leased cfg m job) {x : Except PyError WorkerResult}
    (hends : Ends (Serve latest) m (runWatchdog cfg job) h x db') :
    DoomedJob cfg m job ∧ (∃ e, x = .error e) ∨
      ¬DoomedJob cfg m job ∧ (∃ result, x = .ok result) ∧ Handles [.completed] [job] m db' ∧
        ∀ k, Doomed db' k ↔ Doomed m k := by
  obtain ⟨id, hid⟩ := hgranted.ticketId job
  have hjob (db : TicketDb) : DoomedJob cfg db job ↔ Doomed db id := by
    constructor
    · rintro ⟨id', hid', hdoomed⟩
      cases hid.symm.trans hid'
      exact hdoomed
    · exact fun hdoomed => ⟨id, hid, hdoomed⟩
  unfold runWatchdog at hends
  rw [hid] at hends
  rcases ends_bind.1 hends with ⟨_, h₁, h₂, m₁, rfl, hnamed, hrest₁⟩ | ⟨e, hnamed, -⟩
  case inr => cases (ends_ofExcept.1 hnamed).2.1
  obtain ⟨-, hsame, rfl⟩ := ends_ofExcept.1 hnamed
  cases hsame
  rcases ends_bind.1 hrest₁ with ⟨ticket, h₃, h₄, m₂, rfl, hread, hrest₂⟩ | ⟨e, hread, -⟩
  case inr =>
    obtain ⟨_, -, hreply, -⟩ := ends_perform.1 hread
    cases hreply
  obtain ⟨_, -, hreply, rfl, rfl⟩ := ends_perform.1 hread
  cases hreply
  rw [hjob]
  rcases ends_bind.1 hrest₂ with ⟨result, h₅, h₆, m₃, rfl, hwatched, hrest₃⟩ | ⟨e, hwatched, rfl⟩
  case inr =>
    rcases watchTicket_ends hgranted hstored hwatched with hdoomed | ⟨-, ⟨_, hx⟩, -⟩
    · exact .inl ⟨hdoomed.1, e, rfl⟩
    · cases hx
  rcases watchTicket_ends hgranted hstored hwatched with ⟨-, e, hx⟩ | ⟨hnot, -, hwatches, hleft⟩
  · cases hx
  refine .inr ⟨hnot, ?_⟩
  have hstored' : Stored m₃ := ends_stored hwatched hstored
  have hleased' := hleased.advances hwatches.toAdvances
  have hsame (k : Str) : Doomed m₃ k ↔ Doomed m₂ k := by
    by_cases hk : k = id
    · rw [hk]
      exact iff_of_false hleft hnot
    · exact doomed_congr (hwatches.others k hk) (hwatches.entries k hk) hwatches.receipts
  rcases ends_bind.1 hrest₃ with ⟨b, h₇, h₈, m₄, rfl, hcompleted, hend⟩ | ⟨e, hcompleted, -⟩
  · obtain ⟨-, rfl, rfl⟩ := ends_pure.1 hend
    obtain ⟨r, -, -, hserve⟩ := (ends_raising_perform (Op.completeJob ..) rfl).1 hcompleted
    obtain ⟨-, row, jobs, rfl, hrow, hstatus, hothers⟩ :=
      serve_completeJob hgranted hstored' hleased' hserve
    refine ⟨⟨_, rfl⟩, .of_update hwatches.toAdvances hrow (by simp [hstatus]) hothers, fun k => ?_⟩
    exact (doomed_congr rfl rfl rfl).trans (hsame k)
  · obtain ⟨r, -, hr, hserve⟩ := (ends_raising_perform (Op.completeJob ..) rfl).1 hcompleted
    obtain ⟨rfl, -⟩ := serve_completeJob hgranted hstored' hleased' hserve
    cases hr

/-- The loop over the watchdogs raises exactly where one of their tickets is doomed. -/
theorem runWatchdogs_ends (hgranted : Granted cfg latest) {jobs : List DurableJob}
    (hstored : Stored m) (hleased : ∀ job ∈ jobs, Leased cfg m job)
    (hnodup : (jobs.map DurableJob.jobId).Nodup) {x : Except PyError (List WorkerResult)}
    (hends : Ends (Serve latest) m (runWatchdogs cfg jobs) h x db') :
    (∃ job ∈ jobs, DoomedJob cfg m job) ∧ (∃ e, x = .error e) ∨
      (∀ job ∈ jobs, ¬DoomedJob cfg m job) ∧ (∃ results, x = .ok results) ∧
        Handles [.completed] jobs m db' := by
  induction jobs generalizing m h x with
  | nil =>
    obtain ⟨-, rfl, rfl⟩ := ends_pure.1 hends
    exact .inr ⟨fun job hjob => absurd hjob List.not_mem_nil, ⟨[], rfl⟩, handles_nil⟩
  | cons job jobs ih =>
    rw [List.map_cons, List.nodup_cons] at hnodup
    have hjob := hleased job List.mem_cons_self
    rcases ends_bind.1 hends with ⟨result, h₁, h₂, m₁, rfl, hended, hrest⟩ | ⟨e, hended, rfl⟩
    case inr =>
      rcases runWatchdog_ends hgranted hstored hjob hended with ⟨hdoomed, -⟩ | ⟨-, ⟨_, hx⟩, -⟩
      · exact .inl ⟨⟨job, List.mem_cons_self, hdoomed⟩, e, rfl⟩
      · cases hx
    rcases runWatchdog_ends hgranted hstored hjob hended with ⟨-, e, hx⟩ | ⟨hnot, -, hhandles, hsame⟩
    · cases hx
    have hjobs (j : DurableJob) : DoomedJob cfg m₁ j ↔ DoomedJob cfg m j :=
      exists_congr fun k => and_congr_right fun _ => hsame k
    have hrest' : ∀ j ∈ jobs, Leased cfg m₁ j := by
      intro j hj
      have hheld := hleased j (List.mem_cons_of_mem _ hj)
      refine hheld.of_find? (hhandles.others _ _ ?_ hheld.row)
      rw [List.map_cons, List.map_nil, List.mem_singleton]
      exact fun hsame => hnodup.1 (hsame ▸ List.mem_map_of_mem hj)
    have hstored₁ : Stored m₁ := ends_stored hended hstored
    rcases ends_bind.1 hrest with ⟨results, h₃, h₄, m₂, rfl, hothers, hpure⟩ | ⟨e, hothers, rfl⟩
    · obtain ⟨-, rfl, rfl⟩ := ends_pure.1 hpure
      rcases ih hstored₁ hrest' hnodup.2 hothers with ⟨-, e, hx⟩ | ⟨hnone, -, hhandled⟩
      · cases hx
      · refine .inr ⟨fun j hj => ?_, ⟨_, rfl⟩, hhandles.cons hhandled hnodup.1⟩
        rcases List.mem_cons.1 hj with rfl | hj
        · exact hnot
        · exact fun hdoomed => hnone j hj ((hjobs j).2 hdoomed)
    · rcases ih hstored₁ hrest' hnodup.2 hothers with ⟨⟨j, hj, hdoomed⟩, -⟩ | ⟨-, ⟨_, hx⟩, -⟩
      · exact .inl ⟨⟨j, List.mem_cons_of_mem _ hj, (hjobs j).1 hdoomed⟩, e, rfl⟩
      · cases hx

end Batch

end Watchdogs

end HardyAI.Tickets
