import HardyAI.Tickets.RepositoryCases
import HardyAI.Foundation.Trace

/-! Runs of the ticket repository, and the table of transitions that a ticket's status follows
in them. -/

open Foundation Foundation.Json Foundation.Trace HardyAI.Jobs

namespace HardyAI.Tickets

section Runs

/-- A call of the repository that may write. -/
inductive Call
  | createTicket (a : CreateArgs) (now : Instant)
  | transitionTicket (a : TransitionArgs) (now : Instant)
  | updatePlaneMapping (ticketId : Str) (workItemId : Option Str) (syncStatus : Str)
  | appendEntry (a : EntryArgs) (now : Instant)
  | appendEntryExact (a : EntryArgs) (conflictCode : String) (now : Instant)
  | reserveExecutionManifest (a : ManifestArgs) (now : Instant)
  | recordOperationReceipt (ticketId : Str) (r : OperationReceipt)
  | createExpectation (a : ExpectationArgs) (now : Instant)
  | recordChildOutcome (a : OutcomeArgs) (now : Instant)
  | recordOperationCompletion (a : CompletionArgs) (now : Instant)
  | scheduleVerification (a : ScheduleArgs) (now : Instant)
  | startReviewRun (a : ReviewStart) (now : Instant)
  | completeReviewRun (a : ReviewEnd) (now : Instant)
  | job (c : Jobs.Call)

variable [PythonText]

/-- The database after a call, which a failing call leaves as it was. -/
def step (db : TicketDb) : Call → TicketDb
  | .createTicket a now => (createTicket a now).commit db
  | .transitionTicket a now => (transitionTicket a now).commit db
  | .updatePlaneMapping ticketId workItemId syncStatus =>
    (updatePlaneMapping ticketId workItemId syncStatus).commit db
  | .appendEntry a now => (appendEntry a now).commit db
  | .appendEntryExact a conflictCode now => (appendEntryExact a conflictCode now).commit db
  | .reserveExecutionManifest a now => (reserveExecutionManifestAtomic a now).commit db
  | .recordOperationReceipt ticketId r => (recordOperationReceiptCursor ticketId r).commit db
  | .createExpectation a now => (createExpectationCursor a now).commit db
  | .recordChildOutcome a now => (recordChildOutcomeAtomic a now).commit db
  | .recordOperationCompletion a now => (recordOperationCompletionAtomic a now).commit db
  | .scheduleVerification a now => (scheduleVerification a now).commit db
  | .startReviewRun a now => (startReviewRun a now).commit db
  | .completeReviewRun a now => (completeReviewRun a now).commit db
  | .job c => (onJobs c.run).commit db

def dbAfter (calls : List Call) : TicketDb := run step .empty calls

end Runs

section Lawful

/-- The ticket and the status that a call asks for. -/
def Call.asks : Call → Option (Str × TicketStatus)
  | .transitionTicket a _ => some (a.ticketId, a.status)
  | .scheduleVerification a _ => some (a.ticketId, .verificationPending)
  | _ => none

variable [PythonText] {db db' : TicketDb} {c : Call}

/-- A call changes a status only as the table allows, and where it asks for another change it
changes nothing. -/
structure Lawful (db : TicketDb) (c : Call) : Prop where
  change : ∀ id t t', db.tickets.find? id = some t → (step db c).tickets.find? id = some t' →
    t'.status = t.status ∨ t.status.Allows t'.status
  refusal : ∀ id status, c.asks = some (id, status) → ∀ t, db.tickets.find? id = some t →
    status ≠ t.status → ¬ t.status.Allows status → step db c = db

omit [PythonText] in
theorem allows_verificationPending_iff (s : TicketStatus) :
    (.verificationPending = s ∨ s.Allows .verificationPending) ↔
      s ≠ .captured ∧ s ≠ .waitingClarification := by
  cases s <;> decide

theorem change_of_tickets_eq (h : (step db c).tickets = db.tickets) (id : Str) (t t' : Ticket)
    (ht : db.tickets.find? id = some t) (ht' : (step db c).tickets.find? id = some t') :
    t'.status = t.status ∨ t.status.Allows t'.status := by
  rw [h, ht] at ht'
  cases ht'
  exact .inl rfl

/-- A call that asks for no status and sets none. -/
theorem lawful_of_tickets_eq (hasks : c.asks = none) (h : (step db c).tickets = db.tickets) :
    Lawful db c := by
  refine ⟨change_of_tickets_eq h, fun id status hsome => ?_⟩
  rw [hasks] at hsome
  cases hsome

omit [PythonText] in
theorem commit_tickets {α : Type} {op : Transaction TicketDb α}
    (h : ∀ a db', op db = .ok (a, db') → db'.tickets = db.tickets) :
    (op.commit db).tickets = db.tickets :=
  Transaction.commit_of_forall (P := fun db' : TicketDb => db'.tickets = db.tickets) rfl h

theorem lawful_createTicket (a : CreateArgs) (now : Instant) :
    Lawful db (.createTicket a now) := by
  have hkept : ∀ id t, db.tickets.find? id = some t →
      ((createTicket a now).commit db).tickets.find? id = some t := by
    intro id t ht
    refine Transaction.commit_of_forall
      (P := fun db' : TicketDb => db'.tickets.find? id = some t) ht fun reply db' h => ?_
    rcases createTicket_spec h with rfl | ⟨tickets, hinsert, rfl⟩
    · exact ht
    · rw [Table.find?_insert? hinsert]
      have hne : (a.row now).ticketId ≠ id := by
        rintro rfl
        rw [(Table.insert?_eq_some hinsert).1] at ht
        cases ht
      rw [if_neg hne, ht]
  refine ⟨fun id t t' ht ht' => ?_, fun id status hsome => by cases hsome⟩
  have hsame := hkept id t ht
  rw [step] at ht'
  rw [hsame] at ht'
  cases ht'
  exact .inl rfl

theorem lawful_transitionTicket (a : TransitionArgs) (now : Instant) :
    Lawful db (.transitionTicket a now) := by
  constructor
  · intro id t t' ht ht'
    rw [step] at ht'
    rcases hrun : transitionTicket a now db with e | ⟨reply, db'⟩
    · rw [Transaction.commit_of_error hrun, ht] at ht'
      cases ht'
      exact .inl rfl
    · rw [Transaction.commit_of_ok hrun] at ht'
      rcases transitionTicket_spec hrun with rfl | ⟨current, hcurrent, hallowed, rfl⟩
      · rw [ht] at ht'
        cases ht'
        exact .inl rfl
      · by_cases hid : id = a.ticketId
        · subst hid
          rw [find?_updateTicket_self, hcurrent] at ht'
          cases ht'
          rw [hcurrent] at ht
          cases ht
          exact hallowed
        · rw [find?_updateTicket_of_ne hid, ht] at ht'
          cases ht'
          exact .inl rfl
  · intro id status hasks t ht hne hnot
    cases hasks
    exact Transaction.commit_of_error (transitionTicket_refused ht hne hnot)

theorem lawful_updatePlaneMapping (ticketId : Str) (workItemId : Option Str) (syncStatus : Str) :
    Lawful db (.updatePlaneMapping ticketId workItemId syncStatus) := by
  refine ⟨fun id t t' ht ht' => ?_, fun id status hsome => by cases hsome⟩
  have hupdate : (step db (.updatePlaneMapping ticketId workItemId syncStatus)) =
    db.updateTicket ticketId (planeMapped workItemId syncStatus) := rfl
  rw [hupdate, find?_updateTicket, ht, Option.map_some, Option.some.injEq] at ht'
  left
  rw [← ht']
  split_ifs <;> rfl

/-- A verification is scheduled lawfully unless it finds its ticket before execution. -/
theorem lawful_scheduleVerification_iff (a : ScheduleArgs) (now : Instant) :
    Lawful db (.scheduleVerification a now) ↔
      ∀ t, db.tickets.find? a.ticketId = some t →
        t.status = .captured ∨ t.status = .waitingClarification →
          ∀ due row, ¬ a.Accepted now due row db := by
  constructor
  · intro hlawful t ht hearly due row haccepted
    obtain ⟨⟨job, db'⟩, hrun⟩ := scheduleVerification_isOk.2 ⟨due, row, haccepted⟩
    obtain ⟨due', jobs, -, -, hdb'⟩ := scheduleVerification_spec hrun
    have hstep : step db (.scheduleVerification a now) = db' := Transaction.commit_of_ok hrun
    have hafter : (step db (.scheduleVerification a now)).tickets.find? a.ticketId =
        some ((verificationScheduled (isoUtc (a.completedAt.getD now)) (isoUtc due')
          a.sourceActionRevision).apply t) := by
      rw [hstep, hdb']
      exact find?_updateTicket_self.trans (by rw [ht]; rfl)
    have hallowed := hlawful.change a.ticketId t _ ht hafter
    have hnot := (allows_verificationPending_iff t.status).1 hallowed
    rcases hearly with hcaptured | hwaiting
    · exact hnot.1 hcaptured
    · exact hnot.2 hwaiting
  · intro hcondition
    rcases hrun : scheduleVerification a now db with e | ⟨job, db'⟩
    · have hstep : step db (.scheduleVerification a now) = db := Transaction.commit_of_error hrun
      exact ⟨change_of_tickets_eq (by rw [hstep]), fun _ _ _ _ _ _ _ => hstep⟩
    · have hstep : step db (.scheduleVerification a now) = db' := Transaction.commit_of_ok hrun
      obtain ⟨due, row, haccepted⟩ := scheduleVerification_isOk.1 ⟨_, hrun⟩
      obtain ⟨due', jobs, -, -, hdb'⟩ := scheduleVerification_spec hrun
      have hlate : ∀ t, db.tickets.find? a.ticketId = some t →
          .verificationPending = t.status ∨ t.status.Allows .verificationPending := by
        intro t ht
        refine (allows_verificationPending_iff t.status).2 ⟨fun hcaptured => ?_, fun hwaiting => ?_⟩
        · exact hcondition t ht (.inl hcaptured) due row haccepted
        · exact hcondition t ht (.inr hwaiting) due row haccepted
      constructor
      · intro id t t' ht ht'
        rw [hstep, hdb'] at ht'
        have hfind := (@find?_updateTicket db _ _ id).symm.trans ht'
        rw [ht, Option.map_some, Option.some.injEq] at hfind
        by_cases hid : t.ticketId = a.ticketId
        · rw [if_pos hid] at hfind
          rw [← hfind]
          refine hlate t ?_
          rw [← hid, Table.key_of_find? ht, ht]
        · rw [if_neg hid] at hfind
          exact .inl (by rw [hfind])
      · intro id status hasks t ht hne hnot
        cases hasks
        exact absurd (hlate t ht) (by rintro (h | h); exacts [hne h, hnot h])

/-- The calls that are lawful in this state. -/
def Call.Heeds (db : TicketDb) : Call → Prop
  | .scheduleVerification a now => ∀ t, db.tickets.find? a.ticketId = some t →
      t.status = .captured ∨ t.status = .waitingClarification →
        ∀ due row, ¬ a.Accepted now due row db
  | _ => True

theorem lawful_iff (db : TicketDb) (c : Call) : Lawful db c ↔ c.Heeds db := by
  cases c with
  | scheduleVerification a now => exact lawful_scheduleVerification_iff a now
  | createTicket a now => exact iff_of_true (lawful_createTicket a now) trivial
  | transitionTicket a now => exact iff_of_true (lawful_transitionTicket a now) trivial
  | updatePlaneMapping ticketId workItemId syncStatus =>
    exact iff_of_true (lawful_updatePlaneMapping ticketId workItemId syncStatus) trivial
  | appendEntry a now =>
    refine iff_of_true (lawful_of_tickets_eq rfl (commit_tickets fun _ _ h => ?_)) trivial
    obtain ⟨entries, rfl⟩ := appendEntry_frame h
    rfl
  | appendEntryExact a conflictCode now =>
    refine iff_of_true (lawful_of_tickets_eq rfl (commit_tickets fun _ _ h => ?_)) trivial
    obtain ⟨entries, rfl⟩ := (appendEntryCursor_spec h).frame
    rfl
  | reserveExecutionManifest a now =>
    refine iff_of_true (lawful_of_tickets_eq rfl (commit_tickets fun _ _ h => ?_)) trivial
    obtain ⟨_, _, _, _, _, happend⟩ := reserveExecutionManifestAtomic_spec h
    obtain ⟨entries, rfl⟩ := happend.frame
    rfl
  | recordOperationReceipt ticketId r =>
    refine iff_of_true (lawful_of_tickets_eq rfl (commit_tickets fun _ _ h => ?_)) trivial
    obtain ⟨receipts, rfl⟩ := (recordOperationReceiptCursor_spec h).frame
    rfl
  | createExpectation a now =>
    refine iff_of_true (lawful_of_tickets_eq rfl (commit_tickets fun _ _ h => ?_)) trivial
    obtain ⟨expectations, rfl⟩ := (createExpectationCursor_spec h).frame
    rfl
  | recordChildOutcome a now =>
    refine iff_of_true (lawful_of_tickets_eq rfl (commit_tickets fun _ _ h => ?_)) trivial
    obtain ⟨db₁, db₂, job, jobs, heffect, happend, -, rfl⟩ := recordChildOutcomeAtomic_spec h
    obtain ⟨entries, rfl⟩ := happend.frame
    exact (recordChildEffect_frame heffect).1
  | recordOperationCompletion a now =>
    refine iff_of_true (lawful_of_tickets_eq rfl (commit_tickets fun _ _ h => ?_)) trivial
    exact (recordEffect_frame h).1
  | startReviewRun a now =>
    refine iff_of_true (lawful_of_tickets_eq rfl (commit_tickets fun _ _ h => ?_)) trivial
    obtain ⟨reviews, rfl⟩ := startReviewRun_frame h
    rfl
  | completeReviewRun a now =>
    refine iff_of_true (lawful_of_tickets_eq rfl (commit_tickets fun _ _ h => ?_)) trivial
    obtain ⟨reviews, rfl⟩ := completeReviewRun_frame h
    rfl
  | job c =>
    refine iff_of_true (lawful_of_tickets_eq rfl (commit_tickets fun _ _ h => ?_)) trivial
    obtain ⟨jobs, -, rfl⟩ := onJobs_spec h
    rfl

/-- The statuses of a run follow the table exactly where no accepted `schedule_verification` finds
its ticket captured or waiting for clarification. -/
theorem transitions_lawful_iff (calls : List Call) :
    (∀ before c rest, calls = before ++ c :: rest → Lawful (dbAfter before) c) ↔
      ∀ before c rest, calls = before ++ c :: rest → c.Heeds (dbAfter before) := by
  constructor
  · intro hlawful before c rest hsplit
    exact (lawful_iff _ c).1 (hlawful before c rest hsplit)
  · intro hheeds before c rest hsplit
    exact (lawful_iff _ c).2 (hheeds before c rest hsplit)

end Lawful

section Samples

def sampleInstant : Instant := ⟨63871234567000000, by decide⟩

def sampleTicket : CreateArgs where
  ticketId := "t1"
  originRequestId := "r1"
  sessionId := "session-1"
  userId := "user-1"
  agentId := "jarvis"
  source := "api"
  intent := "lists.add_item"
  skillId := some (text "skill.lists.core")
  route := "micro_tool"
  title := "add milk"

/-- The watchdog has set the ticket to executing, and a request for clarification has come in
between. -/
def clarified : List Call :=
  [.createTicket sampleTicket sampleInstant,
    .transitionTicket { ticketId := "t1", status := .executing } sampleInstant,
    .transitionTicket { ticketId := "t1", status := .waitingClarification } sampleInstant]

/-- The verification that the watchdog schedules all the same. -/
def lateSchedule : Call :=
  .scheduleVerification { ticketId := "t1", sourceActionRevision := "rev"
                          delaySeconds := .micros 3600000000, maxAttempts := 3, jobId := "j1" }
    sampleInstant

theorem transitions_broken_lateSchedule :
    ¬ ∀ before c rest, clarified ++ [lateSchedule] = before ++ c :: rest →
      @Lawful asciiText (@dbAfter asciiText before) c := by
  intro h
  have hlast := @Lawful.change asciiText _ _ (h clarified lateSchedule [] rfl) (text "t1")
  have hrun : @dbAfter asciiText (clarified ++ [lateSchedule]) =
      @step asciiText (@dbAfter asciiText clarified) lateSchedule := run_concat _ _ _
  rw [← hrun] at hlast
  have hbefore : ((@dbAfter asciiText clarified).tickets.find? (text "t1")).map
      Ticket.status = some .waitingClarification := by decide +kernel
  have hafter : ((@dbAfter asciiText (clarified ++ [lateSchedule])).tickets.find? (text "t1")).map
      Ticket.status = some .verificationPending := by decide +kernel
  obtain ⟨t, ht, hstatus⟩ := Option.map_eq_some_iff.1 hbefore
  obtain ⟨t', ht', hstatus'⟩ := Option.map_eq_some_iff.1 hafter
  have hchange := hlast t t' ht ht'
  rw [hstatus, hstatus'] at hchange
  exact absurd hchange (by decide)

end Samples

end HardyAI.Tickets
