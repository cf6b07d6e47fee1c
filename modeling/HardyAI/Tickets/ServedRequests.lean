import HardyAI.Tickets.ReviewSoundness
import HardyAI.Tickets.Serving

/-! What the database keeps while requests are served, and the requests that it cannot refuse. -/

open Foundation Foundation.Json Foundation.Program HardyAI.Jobs Relation

namespace HardyAI.Tickets

section Frames

variable [PythonText] {latest : Instant} {db db' m : TicketDb} {op : Op} {r : op.Reply}

theorem Stored.onJobs (h : Stored db) {α : Type} {t : Transaction JobLedger α} {c : Jobs.Call}
    (hc : ∀ l, Jobs.step l c = t.commit l) {reply : Except PyError α}
    (hcommits : Commits (onJobs t) db reply db') : Stored db' := by
  rcases hcommits.cases with ⟨a, -, hrun⟩ | ⟨e, -, rfl, -⟩
  · obtain ⟨jobs, hjobs, rfl⟩ := onJobs_spec hrun
    refine h.withJobs fun j row hrow => jobStored_step h.jobs c j row ?_
    rw [hc, Transaction.commit_of_ok hjobs]
    exact hrow
  · exact h

/-- Every request keeps what is stored. -/
theorem serve_stored (hserve : Serve latest db op r db') (h : Stored db) : Stored db' := by
  cases op with
  | createTicket a =>
    obtain ⟨now, -, hcommits⟩ := hserve
    rcases hcommits.cases with ⟨reply, -, hrun⟩ | ⟨e, -, rfl, -⟩
    · simp only [createBound, bind_eq_ok] at hrun
      obtain ⟨_, hbound, hrun⟩ := hrun
      exact h.create (bindParameters_encodable hbound List.mem_cons_self) hrun
    · exact h
  | transitionTicket a =>
    obtain ⟨now, -, -, rfl⟩ := hserve
    exact h.step (c := .transitionTicket a now) trivial
  | appendEntry a =>
    obtain ⟨now, -, -, rfl⟩ := hserve
    exact h.step (c := .appendEntry a now) trivial
  | reserve a =>
    obtain ⟨now, -, hcommits⟩ := hserve
    rcases hcommits.cases with ⟨reply, -, hrun⟩ | ⟨e, -, rfl, -⟩
    · simp only [Tickets.reserve, bind_eq_ok] at hrun
      obtain ⟨normalized, -, manifestHash, -, hrun⟩ := hrun
      rw [← Transaction.commit_of_ok hrun]
      generalize normalized.fields = manifest
      exact h.step (c := .reserveExecutionManifest ⟨a.entryId, a.ticketId, a.requestId, manifest,
        manifestHash, a.domainReservation⟩ now) trivial
    · exact h
  | recordChildOutcome a =>
    obtain ⟨now, -, -, rfl⟩ := hserve
    exact h.step (c := .recordChildOutcome a now) trivial
  | recordOperationCompletion a =>
    obtain ⟨now, -, -, rfl⟩ := hserve
    exact h.step (c := .recordOperationCompletion a now) trivial
  | scheduleVerification a =>
    obtain ⟨now, -, -, rfl⟩ := hserve
    exact h.step (c := .scheduleVerification a now) trivial
  | startReviewRun a =>
    obtain ⟨now, -, -, rfl⟩ := hserve
    exact h.step (c := .startReviewRun a now) trivial
  | completeReviewRun a =>
    obtain ⟨now, -, -, rfl⟩ := hserve
    exact h.step (c := .completeReviewRun a now) trivial
  | enqueueJob a =>
    obtain ⟨now, -, hcommits⟩ := hserve
    refine h.onJobs (c := .enqueueJob a now) (fun l => ?_) hcommits
    exact Transaction.commit_mapReply ..
  | claimJobs jobType workerId limit leaseSeconds =>
    obtain ⟨now, -, hcommits⟩ := hserve
    refine h.onJobs (c := .claimJobs jobType workerId limit leaseSeconds now) (fun l => ?_) hcommits
    exact Transaction.commit_mapReply ..
  | completeJob jobId workerId =>
    obtain ⟨now, -, hcommits⟩ := hserve
    refine h.onJobs (c := .completeJob jobId workerId none now) (fun l => ?_) hcommits
    exact Transaction.commit_mapReply ..
  | retryJob jobId workerId errorCode delaySeconds =>
    obtain ⟨now, -, hcommits⟩ := hserve
    refine h.onJobs (c := .retryJob jobId workerId errorCode delaySeconds none now) (fun l => ?_)
      hcommits
    exact Transaction.commit_mapReply ..
  | observe | buildContext | review | executeRemediation | hasRecentLiveInput =>
    have hsame : db' = db := hserve
    rwa [hsame]
  | _ =>
    obtain ⟨rfl, -⟩ := hserve
    exact h

end Frames

section Advances

/-- A transition of the table that does not lead back before the execution. -/
def TicketStatus.Moves (s s' : TicketStatus) : Prop :=
  s.Allows s' ∧ s' ≠ .captured ∧ s' ≠ .waitingClarification

instance (s s' : TicketStatus) : Decidable (s.Moves s') := by
  unfold TicketStatus.Moves; infer_instance

/-- The rows of jobs are kept, and tickets move on. -/
structure Advances (db db' : TicketDb) : Prop where
  jobs : ∀ j r, db.jobs.find? j = some r → db'.jobs.find? j = some r
  tickets : ∀ id t, db.tickets.find? id = some t → ∃ t', db'.tickets.find? id = some t' ∧
    ReflTransGen TicketStatus.Moves t.status t'.status

variable {latest : Instant} {db db' m : TicketDb}

theorem Advances.refl (db : TicketDb) : Advances db db :=
  ⟨fun _ _ h => h, fun _ t h => ⟨t, h, .refl⟩⟩

theorem Advances.trans (hfirst : Advances db m) (hsecond : Advances m db') : Advances db db' := by
  refine ⟨fun j r h => hsecond.jobs j r (hfirst.jobs j r h), fun id t ht => ?_⟩
  obtain ⟨t₁, ht₁, hmoves₁⟩ := hfirst.tickets id t ht
  obtain ⟨t₂, ht₂, hmoves₂⟩ := hsecond.tickets id t₁ ht₁
  exact ⟨t₂, ht₂, hmoves₁.trans hmoves₂⟩

/-- A status that is not before the execution stays so. -/
theorem moves_late {s s' : TicketStatus} (h : ReflTransGen TicketStatus.Moves s s')
    (hlate : s ≠ .captured ∧ s ≠ .waitingClarification) :
    s' ≠ .captured ∧ s' ≠ .waitingClarification := by
  induction h with
  | refl => exact hlate
  | tail _ hstep _ => exact hstep.2

theorem Advances.of_frame (htickets : db'.tickets = db.tickets) (hjobs : db'.jobs = db.jobs) :
    Advances db db' :=
  ⟨fun _ _ h => hjobs ▸ h, fun _ t h => ⟨t, htickets ▸ h, .refl⟩⟩

theorem Advances.updateTicket {ticketId : Str} {a : TicketAssignment}
    (hmoves : ∀ t, db.tickets.find? ticketId = some t →
      (a.apply t).status = t.status ∨ t.status.Moves (a.apply t).status) :
    Advances db (db.updateTicket ticketId a) := by
  refine ⟨fun _ _ h => h, fun id t ht => ?_⟩
  by_cases hid : id = ticketId
  · subst hid
    refine ⟨a.apply t, by rw [find?_updateTicket_self, ht]; rfl, ?_⟩
    rcases hmoves t ht with hsame | hmove
    · rw [hsame]
    · exact .single hmove
  · exact ⟨t, by rw [find?_updateTicket_of_ne hid, ht], .refl⟩

variable [PythonText]

theorem Advances.enqueue {e : EnqueueArgs} {now : Instant} {job : DurableJob} {jobs : JobLedger}
    (hrun : enqueueJob e now db.jobs = .ok (job, jobs)) : Advances db { db with jobs } := by
  refine ⟨fun j r hr => ?_, fun _ t h => ⟨t, h, .refl⟩⟩
  obtain ⟨row, -, hinsert⟩ := enqueueJob_spec hrun
  rcases insertOrIgnore_spec hinsert j with ⟨hfind, hfresh⟩ | rfl
  · rw [hfind]
    split
    · next hid =>
      rw [hid, hr] at hfresh
      cases hfresh
    · exact hr
  · exact hr

/-- A request that keeps the rows of jobs and takes no ticket back. -/
def Op.steady : Op → Bool
  | .transitionTicket a => a.status ∉ [.captured, .waitingClarification]
  | .scheduleVerification _ | .claimJobs .. | .completeJob .. | .retryJob .. => false
  | _ => true

omit [PythonText] in
theorem steady_of_quiet {op : Op} (h : op.quiet = true) : op.steady = true := by
  cases op with
  | transitionTicket a =>
    simp only [Op.quiet, decide_eq_true_eq, List.mem_cons, not_or] at h
    simpa [Op.steady] using h.2
  | scheduleVerification | claimJobs | completeJob | retryJob => exact h
  | _ => rfl

omit [PythonText] in
theorem Commits.advances {α : Type} {t : Transaction TicketDb α} {r : Except PyError α}
    (h : Commits t db r db') (ht : ∀ a m, t db = .ok (a, m) → Advances db m) :
    Advances db db' := by
  rcases h.cases with ⟨a, -, hrun⟩ | ⟨e, -, rfl, -⟩
  · exact ht a db' hrun
  · exact .refl _

theorem serve_advances {op : Op} {r : op.Reply} (hop : op.steady = true)
    (hserve : Serve latest db op r db') : Advances db db' := by
  cases op with
  | createTicket a =>
    obtain ⟨now, -, hcommits⟩ := hserve
    refine hcommits.advances fun reply m hrun => ?_
    simp only [createBound, bind_eq_ok] at hrun
    obtain ⟨_, -, hrun⟩ := hrun
    rcases createTicket_spec hrun with rfl | ⟨tickets, hinsert, rfl⟩
    · exact .refl _
    · refine ⟨fun _ _ h => h, fun id t ht => ⟨t, ?_, .refl⟩⟩
      rw [Table.find?_insert? hinsert, if_neg, ht]
      rintro rfl
      rw [(Table.insert?_eq_some hinsert).1] at ht
      cases ht
  | transitionTicket a =>
    obtain ⟨now, -, hcommits⟩ := hserve
    refine hcommits.advances fun reply m hrun => ?_
    rcases transitionTicket_spec hrun with rfl | ⟨current, hcurrent, hallowed, rfl⟩
    · exact .refl _
    · refine .updateTicket fun t ht => ?_
      cases hcurrent.symm.trans ht
      simp only [Op.steady, decide_eq_true_eq, List.mem_cons, List.not_mem_nil, or_false,
        not_or] at hop
      exact hallowed.imp id fun hallows => ⟨hallows, hop⟩
  | appendEntry a =>
    obtain ⟨now, -, hcommits⟩ := hserve
    refine hcommits.advances fun reply m hrun => ?_
    obtain ⟨entries, rfl⟩ := appendEntry_frame hrun
    exact .of_frame rfl rfl
  | reserve a =>
    obtain ⟨now, -, hcommits⟩ := hserve
    refine hcommits.advances fun reply m hrun => ?_
    simp only [Tickets.reserve, bind_eq_ok] at hrun
    obtain ⟨_, -, _, -, hrun⟩ := hrun
    obtain ⟨_, _, _, _, _, happend⟩ := reserveExecutionManifestAtomic_spec hrun
    obtain ⟨entries, rfl⟩ := happend.frame
    exact .of_frame rfl rfl
  | recordChildOutcome a =>
    obtain ⟨now, -, hcommits⟩ := hserve
    refine hcommits.advances fun reply m hrun => ?_
    obtain ⟨db₁, db₂, job, jobs, heffect, happend, hjob, rfl⟩ := recordChildOutcomeAtomic_spec hrun
    obtain ⟨htickets, hjobs⟩ := recordChildEffect_frame heffect
    obtain ⟨entries, rfl⟩ := happend.frame
    have hframe : Advances db { db₁ with entries } := .of_frame htickets hjobs
    exact hframe.trans (.enqueue hjob)
  | recordOperationCompletion a =>
    obtain ⟨now, -, hcommits⟩ := hserve
    refine hcommits.advances fun reply m hrun => ?_
    obtain ⟨htickets, hjobs⟩ := recordEffect_frame hrun
    exact .of_frame htickets hjobs
  | startReviewRun a =>
    obtain ⟨now, -, hcommits⟩ := hserve
    refine hcommits.advances fun reply m hrun => ?_
    obtain ⟨reviews, rfl⟩ := startReviewRun_frame hrun
    exact .of_frame rfl rfl
  | completeReviewRun a =>
    obtain ⟨now, -, hcommits⟩ := hserve
    refine hcommits.advances fun reply m hrun => ?_
    obtain ⟨reviews, rfl⟩ := completeReviewRun_frame hrun
    exact .of_frame rfl rfl
  | enqueueJob a =>
    obtain ⟨now, -, hcommits⟩ := hserve
    refine hcommits.advances fun reply m hrun => ?_
    obtain ⟨jobs, hjob, rfl⟩ := onJobs_spec hrun
    exact .enqueue hjob
  | scheduleVerification | claimJobs | completeJob | retryJob => cases hop
  | observe | buildContext | review | executeRemediation | hasRecentLiveInput =>
    have hsame : db' = db := hserve
    rw [hsame]
    exact .refl _
  | _ =>
    obtain ⟨rfl, -⟩ := hserve
    exact .refl _

/-- What a program of steady requests leaves. -/
theorem ends_advances {α : Type} {p : Process α} {h : History Op.Reply} {x : Except PyError α}
    (hsafe : Safe (fun _ op => op.steady = true) [] p) (hends : Ends (Serve latest) db p h x db') :
    Advances db db' := by
  have hsteady : ∀ e ∈ h, e.1.steady = true := by
    intro e he
    obtain ⟨a, b, rfl⟩ := List.append_of_mem he
    exact hsafe.allowed hends.1 a e.1 e.2 b rfl
  have hstep : ∀ s (op : Op) (r : op.Reply) s', op.steady = true → Serve latest s op r s' →
      Advances db s → Advances db s' :=
    fun s op r s' hop hserve hs => hs.trans (serve_advances hop hserve)
  exact hends.2.invariant hsteady hstep (.refl db)

theorem ends_stored {α : Type} {p : Process α} {h : History Op.Reply} {x : Except PyError α}
    (hends : Ends (Serve latest) db p h x db') (hstored : Stored db) : Stored db' := by
  have hstep : ∀ s (op : Op) (r : op.Reply) s', True → Serve latest s op r s' →
      Stored s → Stored s' :=
    fun s op r s' _ hserve hs => serve_stored hserve hs
  exact hends.2.invariant (fun _ _ => trivial) hstep hstored

end Advances

section Texts

theorem isAscii_padded (width n : Nat) : isAscii (padded width n) = true := by
  induction width generalizing n with
  | zero => rfl
  | succ width ih =>
    have hlt : 48 + n % 10 < 128 := by omega
    rw [padded, isAscii_append, ih]
    simpa [isAscii] using hlt

theorem isAscii_isoUtc (t : Instant) : isAscii (isoUtc t) = true := by
  have hmarks : isAscii (text "-") = true ∧ isAscii (text "T") = true ∧ isAscii (text ":") = true ∧
      isAscii (text ".") = true ∧ isAscii (text "+00:00") = true := by decide
  obtain ⟨hdash, ht, hcolon, hdot, hzone⟩ := hmarks
  have hmicro : isAscii (if t.val % 1000000 = 0 then [] else
      text "." ++ padded 6 (t.val % 1000000)) = true := by
    split
    · rfl
    · rw [isAscii_append, hdot, isAscii_padded]
      rfl
  rw [isoUtc]
  simp only [isAscii_append, isAscii_padded, hdash, ht, hcolon, hzone, hmicro, Bool.and_self]

theorem isAscii_hexdigest (bytes : List Nat) : isAscii (Sha256.hexdigest bytes) = true := by
  rw [isAscii, List.all_eq_true]
  intro c hc
  have hhex := Sha256.hexdigest_hex bytes c hc
  have hlt : c.val < 128 := by omega
  exact decide_eq_true hlt

theorem mem_of_mem_strip {c : CodePoint} {s : Str} (h : c ∈ strip s) : c ∈ s := by
  have hback : strip s <+: s.dropWhile isSpace := List.rdropWhile_prefix isSpace _
  exact (List.dropWhile_suffix isSpace).mem (hback.mem h)

theorem encodable_strip {s : Str} (h : encodable s = true) : encodable (strip s) = true := by
  rw [encodable, List.all_eq_true] at h ⊢
  exact fun c hc => h c (mem_of_mem_strip hc)

/-- Text that does not begin with a blank keeps its first character. -/
theorem strip_cons {c : CodePoint} (hc : isSpace c = false) (s : Str) :
    ∃ rest, strip (c :: s) = c :: rest := by
  have hfront : (c :: s).dropWhile isSpace = c :: s := by simp [hc]
  have hpre : strip (c :: s) <+: (c :: s).dropWhile isSpace := List.rdropWhile_prefix isSpace _
  rw [hfront] at hpre
  rcases hstrip : strip (c :: s) with _ | ⟨d, rest⟩
  · have hall : ∀ x ∈ c :: s, isSpace x = true := by
      have hnil : List.rdropWhile isSpace (c :: s) = [] := by
        rw [← hstrip, strip, hfront]
        rfl
      exact List.rdropWhile_eq_nil_iff.1 hnil
    rw [hall c List.mem_cons_self] at hc
    cases hc
  · rw [hstrip] at hpre
    obtain ⟨tail, htail⟩ := hpre
    obtain ⟨rfl, -⟩ := List.cons.inj htail
    exact ⟨rest, rfl⟩

/-- The reserved prefixes all begin with an r. -/
theorem protectedPrefix_cons {c : CodePoint} {s : Str} (hc : c ≠ 0x72) :
    protectedPrefix (c :: s) = false := by
  have hheads : ∀ reserved ∈ [text "review-notification-discord:v1:",
      text "review-action-execution:v1:", text "review-outcome-discord:v1:"],
      reserved.head? = some 0x72 := by decide
  rw [protectedPrefix, List.any_eq_false]
  intro reserved hmem hstarts
  have hhead := hheads reserved hmem
  cases reserved with
  | nil => cases hhead
  | cons d rest =>
    rw [startsWith, List.isPrefixOf_cons_cons, Bool.and_eq_true, beq_iff_eq] at hstarts
    rw [List.head?_cons, Option.some.injEq] at hhead
    exact hc (hstarts.1.symm.trans hhead)

end Texts

section Accepted

variable [PythonText]

/-- Arguments whose row can be stored, under a key that is not reserved. -/
structure Storable (e : EnqueueArgs) : Prop where
  id : encodable e.jobId = true
  jobType : encodable (strip e.jobType) = true
  plain : approvalJobFields (strip e.jobType) = none
  aggregate : encodable e.aggregateId = true
  key : encodable e.idempotencyKey = true
  unreserved : ∃ c rest, e.idempotencyKey = c :: rest ∧ isSpace c = false ∧ c ≠ 0x72
  payload : (Json.obj e.payload).hasLongInt = false
  available : ∀ s ∈ e.availableAt, encodable s = true
  attempts : max 1 e.maxAttempts < 2 ^ 63
  resourceClass : e.resourceClass = text "cpu_small"
  deadline : e.totalDeadlineAt = none

variable {e : EnqueueArgs} {l : JobLedger} {now : Instant}
  (hfloat : ∀ bits, isAscii (PythonText.floatRepr bits) = true)

include hfloat

theorem Storable.row (h : Storable e) : ∃ row, e.row now = .ok row ∧
    row.idempotencyKey = strip e.idempotencyKey := by
  obtain ⟨c, rest, hkey, hspace, hhead⟩ := h.unreserved
  obtain ⟨rest', hstrip⟩ := strip_cons hspace rest
  have hvalid : validateApprovalJob (strip e.jobType) (strip e.aggregateId)
      (strip e.idempotencyKey) e.payload = .ok () := by
    rw [validateApprovalJob, h.plain, hkey, hstrip]
    simp only [protectedPrefix_cons hhead]
    rfl
  have hdump : dump true (.obj e.payload) = .ok ((Json.obj e.payload).render true) := by
    rw [dump, h.payload]
    rfl
  have hclass : ResourceClass.ofValue e.resourceClass = .ok .cpuSmall := by
    rw [h.resourceClass]
    decide
  have hiso : encodable (isoUtc now) = true := encodable_of_isAscii (isAscii_isoUtc now)
  have havailable : encodable (if e.availableAt.getD [] = [] then isoUtc now
      else e.availableAt.getD []) = true := by
    split
    · exact hiso
    · cases hsome : e.availableAt with
      | none => rfl
      | some s => exact h.available s hsome
  have hattempts : (Parameter.int (max 1 e.maxAttempts)).error? = none := by
    have hlow : (1 : Int) ≤ max 1 e.maxAttempts := le_max_left ..
    rw [Parameter.error?, if_pos ⟨by omega, h.attempts⟩]
  have hbound := @bindParameters_ok [.text e.jobId, .text (strip e.jobType),
    .text (strip e.aggregateId), .text (strip e.idempotencyKey),
    .text ((Json.obj e.payload).render true), .text (if e.availableAt.getD [] = [] then isoUtc now
      else e.availableAt.getD []), .int (max 1 e.maxAttempts), .ofText? e.totalDeadlineAt] (by
      intro p hp
      simp only [List.mem_cons, List.not_mem_nil, or_false] at hp
      rcases hp with rfl | rfl | rfl | rfl | rfl | rfl | rfl | rfl
      · exact error?_text h.id
      · exact error?_text h.jobType
      · exact error?_text (encodable_strip h.aggregate)
      · exact error?_text (encodable_strip h.key)
      · exact error?_text (encodable_of_isAscii (isAscii_render hfloat _))
      · exact error?_text havailable
      · exact hattempts
      · rw [h.deadline]
        rfl)
  have hok : ∃ row, e.row now = .ok row := by
    simp only [EnqueueArgs.row, bind_eq_ok]
    exact ⟨_, (), hvalid, _, hdump, _, hclass, (), hbound, rfl⟩
  obtain ⟨row, hrow⟩ := hok
  refine ⟨row, hrow, ?_⟩
  simp only [EnqueueArgs.row, bind_eq_ok, Except.ok.injEq] at hrow
  obtain ⟨_, _, _, _, _, _, _, _, rfl⟩ := hrow
  rfl

/-- Such a job is taken into a ledger in which its identifier is new. -/
theorem Storable.accepted (h : Storable e) (hjobs : ∀ j r, l.find? j = some r → JobStored r)
    (hfresh : l.find? e.jobId = none) : ∃ p, enqueueJob e now l = .ok p := by
  obtain ⟨row, hrow, hsame⟩ := h.row hfloat
  refine (enqueueJob_isOk h.plain).2 ⟨row, hrow, hfresh, fun old hold => ?_⟩
  obtain ⟨c, rest, hkey, hspace, hhead⟩ := h.unreserved
  obtain ⟨rest', hstrip⟩ := strip_cons hspace rest
  have hmem : old ∈ l.jobs.rows := List.mem_of_find?_eq_some hold
  have hold' : old.idempotencyKey = row.idempotencyKey := by
    simpa using List.find?_some hold
  have hstored := hjobs old.jobId old (Table.find?_of_mem hmem)
  by_contra hnot
  have hprotected := hstored.approvalKey (Option.isSome_iff_ne_none.2 hnot)
  rw [hold', hsame, hkey, hstrip, protectedPrefix_cons hhead] at hprotected
  cases hprotected

end Accepted

end HardyAI.Tickets
