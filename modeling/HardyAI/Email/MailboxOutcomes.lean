import HardyAI.Email.ReferenceOrder
import HardyAI.Tickets.OutcomeRecords
import HardyAI.Tickets.StoredManifests

/-! The mailbox worker's reports of its finished children to their ticket. -/

open Foundation Foundation.Json HardyAI.Tickets

namespace HardyAI.Email

section Reports

/-- A row of `terminal_parent_mailbox_children`, or of the operation that has just ended. -/
structure MailboxChild where
  operationId : Str
  parentOperationId : Option Str
  parentManifestHash : Option Str
  p7ManifestHash : Option Str
  status : Str
  lastErrorCode : Option Str
  gmailMessageId : Str
  deriving DecidableEq

/-- A call of `_report_mailbox_outcome`: its time, the clock of the ticket repository and the
identifiers that the repository generates. -/
structure MailboxReport where
  child : MailboxChild
  now : Instant
  clock : Instant
  expectationId : Str
  receiptEntryId : Str
  entryId : Str
  jobId : Str

variable [PythonText]

def MailboxChild.error (c : MailboxChild) : Str :=
  PythonText.casefold (strip (c.lastErrorCode.getD []))

/-- The state that is reported, if the row is terminal. -/
def MailboxChild.state (c : MailboxChild) : Option ChildState :=
  let status := PythonText.casefold (strip c.status)
  if status = text "verified" then some .verified
  else if status = text "cancelled" ∧ c.error = text "policy_denied" then some .denied
  else if status = text "cancelled" then some .cancelled
  else if status = text "dead_letter" then some .deadLetter
  else none

/-- `child.get("parent_manifest_hash") or child.get("p7_manifest_hash") or ""`. -/
def MailboxChild.manifestHash (c : MailboxChild) : Str :=
  let own := c.parentManifestHash.getD []
  if own = [] then c.p7ManifestHash.getD [] else own

/-- The receipt, which only a verified child has. -/
def MailboxReport.receipt (r : MailboxReport) (state : ChildState) :
    Except PyError (Option Fields) :=
  if state ≠ .verified then .ok none
  else do
    let bytes ← utf8 r.child.gmailMessageId
    let resourceHash := Sha256.hexdigest bytes
    .ok (some [("operation_id", .str r.child.operationId),
      ("idempotency_key", .str (receiptKey r.child.operationId)),
      ("capability", .str "email.move_to_spam"), ("action", .str "move_to_spam"),
      ("resource_key", .str (text "email_message:" ++ resourceHash.take 24)),
      ("status", .str "committed"), ("committed_at", .str (isoUtcSeconds r.now)),
      ("expected_effect", .obj [("spam", .bool true), ("inbox", .bool false)]),
      ("validator_name", .str "gmail_mailbox_label_readback"), ("validator_version", .str "v1"),
      ("resource_locator", .obj [("resource_hash", .str resourceHash)])])

/-- The arguments of `record_terminal_child`. -/
def MailboxReport.call (r : MailboxReport) (state : ChildState) : Except PyError TerminalChild := do
  let receipt ← r.receipt state
  .ok { parentOperationId := r.child.parentOperationId.getD []
        parentManifestHash := r.child.manifestHash, childOperationId := r.child.operationId
        effectState := state.value, receipt
        reasonCode := if state ≠ .verified ∧ r.child.error ≠ [] then some r.child.error else none
        expectationId := r.expectationId, receiptEntryId := r.receiptEntryId
        entryId := r.entryId, jobId := r.jobId }

/-- `record_terminal_child` up to what it commits. -/
def storeTerminalChild (t : TerminalChild) (clock : Instant) : Transaction TicketDb OutcomeArgs :=
  fun db => do
    let keys ← t.keys
    let outcome ← t.outcome keys (db.entries.find? (manifestKey keys.parentId))
    let (_, db') ← recordChildOutcomeAtomic outcome clock db
    .ok (outcome, db')

/-- `record_terminal_child`, which commits before it reduces the ticket's effects. -/
def recordTerminalChild (t : TerminalChild) (clock : Instant) (db : TicketDb) :
    Except PyError EffectAggregate × TicketDb :=
  match storeTerminalChild t clock db with
  | .error e => (.error e, db)
  | .ok (outcome, db') => (reduceTicketEffects db' outcome.ticketId, db')

omit [PythonText] in
/-- `except (KeyError, LookupError, TypeError, ValueError)`. -/
def reportCaught : PyError → Bool
  | .keyError _ | .lookupError _ | .typeError => true
  | e => e.isValueError

omit [PythonText] in
/-- What the worker makes of the sink's answer. -/
def reportReply : Except PyError EffectAggregate → Except PyError Bool
  | .ok aggregate => .ok aggregate.missingChildOperationIds.isEmpty
  | .error e => if reportCaught e then .ok false else .error e

/-- `_report_mailbox_outcome` of a worker that has a sink. -/
def reportMailboxOutcome (r : MailboxReport) (db : TicketDb) : Except PyError Bool × TicketDb :=
  match r.child.state with
  | none => (.ok false, db)
  | some state =>
    match r.call state with
    | .error e => (.error e, db)
    | .ok t =>
      let recorded := recordTerminalChild t r.clock db
      (reportReply recorded.1, recorded.2)

/-- Reports one after the other. -/
def afterReports (reports : List MailboxReport) (db : TicketDb) : TicketDb :=
  reports.foldl (fun db r => (reportMailboxOutcome r db).2) db

/-- What a report commits, where its child is terminal and the sink accepts it. -/
def MailboxReport.store (r : MailboxReport) : Transaction TicketDb OutcomeArgs := fun db =>
  match r.child.state with
  | none => .error (.valueError "")
  | some state => do
    let t ← r.call state
    storeTerminalChild t r.clock db

end Reports

section Runs

variable [PythonText] {r : MailboxReport} {state : ChildState} {t : TerminalChild}
  {keys : TerminalKeys} {found : Option TicketEntry} {o : OutcomeArgs} {db db' : TicketDb}

/-- Whatever a report returns, it leaves what its transaction commits. -/
theorem reportMailboxOutcome_state (r : MailboxReport) (db : TicketDb) :
    (reportMailboxOutcome r db).2 = r.store.commit db := by
  unfold reportMailboxOutcome MailboxReport.store Transaction.commit
  cases r.child.state with
  | none => rfl
  | some state =>
    cases hcall : r.call state with
    | error e =>
      simp only [hcall]
      rfl
    | ok t =>
      have hbind : ((.ok t : Except PyError TerminalChild) >>= fun t =>
          storeTerminalChild t r.clock db) = storeTerminalChild t r.clock db := rfl
      simp only [hcall, hbind, recordTerminalChild]
      cases storeTerminalChild t r.clock db with
      | error e => rfl
      | ok p => rfl

theorem store_spec (h : r.store db = .ok (o, db')) : ∃ state t keys entry,
    r.child.state = some state ∧ r.call state = .ok t ∧ t.keys = .ok keys ∧
      t.outcome keys (db.entries.find? (manifestKey keys.parentId)) = .ok o ∧
      recordChildOutcomeAtomic o r.clock db = .ok (entry, db') := by
  unfold MailboxReport.store at h
  split at h
  · cases h
  · next state hstate =>
    simp only [storeTerminalChild, bind_eq_ok] at h
    obtain ⟨t, hcall, keys, hkeys, outcome, houtcome, ⟨entry, db₁⟩, hrecord, h⟩ := h
    cases h
    exact ⟨state, t, keys, entry, hstate, hcall, hkeys, houtcome, hrecord⟩

theorem report_of_store (h : r.store db = .ok (o, db')) :
    reportMailboxOutcome r db = (reportReply (reduceTicketEffects db' o.ticketId), db') := by
  obtain ⟨state, t, keys, entry, hstate, hcall, hkeys, houtcome, hrecord⟩ := store_spec h
  have hstored : storeTerminalChild t r.clock db = .ok (o, db') :=
    bind_eq_ok.2 ⟨keys, hkeys, bind_eq_ok.2 ⟨o, houtcome, bind_eq_ok.2 ⟨_, hrecord, rfl⟩⟩⟩
  simp only [reportMailboxOutcome, hstate, hcall, recordTerminalChild, hstored]

theorem report_of_refused {e : PyError} (hstate : r.child.state = some state)
    (hcall : r.call state = .ok t) (h : r.store db = .error e) :
    reportMailboxOutcome r db = (reportReply (.error e), db) := by
  have hstored : storeTerminalChild t r.clock db = .error e := by
    have hstore : r.store db = storeTerminalChild t r.clock db := by
      unfold MailboxReport.store
      rw [hstate]
      exact bind_of_ok hcall
    exact hstore.symm.trans h
  simp only [reportMailboxOutcome, hstate, hcall, recordTerminalChild, hstored]

/-- What a report commits once the manifest of its ticket is accepted. -/
theorem store_of_manifest {entry : TicketEntry} {m : ExecutionManifest}
    (hstate : r.child.state = some state) (hcall : r.call state = .ok t) (hkeys : t.keys = .ok keys)
    (hfind : db.entries.find? (manifestKey keys.parentId) = some entry)
    (hm : normalizeExecutionManifest entry.structuredPayload = .ok m)
    (hhash : contentHash (.obj m.fields) = .ok keys.manifestHash) :
    r.store db = (do
      let outcome ← t.recorded keys entry m
      let (_, db') ← recordChildOutcomeAtomic outcome r.clock db
      .ok (outcome, db')) := by
  have houtcome : t.outcome keys (some entry) = t.recorded keys entry m := by
    rw [outcome_of_manifest hm hhash, require, if_pos (decide_eq_true rfl)]
    rfl
  unfold MailboxReport.store
  rw [hstate]
  refine (bind_of_ok hcall).trans ((bind_of_ok hkeys).trans ?_)
  rw [hfind, houtcome]

theorem store_onRecord (h : r.store db = .ok (o, db')) : OnRecord o db' ∧ db.Grows db' := by
  obtain ⟨_, _, _, _, -, -, -, -, hrecord⟩ := store_spec h
  exact recordChildOutcomeAtomic_onRecord hrecord

theorem report_grows (r : MailboxReport) (db : TicketDb) :
    db.Grows (reportMailboxOutcome r db).2 := by
  rw [reportMailboxOutcome_state]
  unfold Transaction.commit
  split
  · next h => exact (store_onRecord h).2
  · exact .refl db

theorem afterReports_grows (reports : List MailboxReport) :
    ∀ db : TicketDb, db.Grows (afterReports reports db) := by
  induction reports with
  | nil => exact fun db => .refl db
  | cons r reports ih =>
    intro db
    exact (report_grows r db).trans (ih _)

end Runs

section Again

variable [PythonText] {first second : MailboxReport} {state : ChildState} {t : TerminalChild}
  {keys : TerminalKeys} {found : Option TicketEntry} {o : OutcomeArgs} {db db' : TicketDb}

/-- A call under the identifiers of another report. -/
def MailboxReport.callAgain (r : MailboxReport) (t : TerminalChild) : TerminalChild :=
  { t with
    expectationId := r.expectationId, receiptEntryId := r.receiptEntryId
    entryId := r.entryId, jobId := r.jobId }

omit [PythonText] in
theorem iso_eq_iff {a b : Instant} : isoUtcSeconds a = isoUtcSeconds b ↔ a.second = b.second := by
  constructor
  · intro hsame
    rcases Nat.lt_trichotomy a.second b.second with hlt | heq | hgt
    · have hless : Writer.typed.stamp a < Writer.typed.stamp b := stamp_lt_of_second hlt
      exact absurd hsame hless.ne
    · exact heq
    · have hless : Writer.typed.stamp b < Writer.typed.stamp a := stamp_lt_of_second hgt
      exact absurd hsame hless.ne'
  · exact typed_eq_typed

/-- Without a receipt, or at a time of the same second, a report says the same again. -/
theorem call_again (hchild : second.child = first.child)
    (hsame : state ≠ .verified ∨ first.now.second = second.now.second)
    (hcall : first.call state = .ok t) : second.call state = .ok (second.callAgain t) := by
  simp only [MailboxReport.call, bind_eq_ok] at hcall ⊢
  obtain ⟨receipt, hreceipt, h⟩ := hcall
  cases h
  refine ⟨receipt, ?_, by rw [hchild, MailboxReport.callAgain]⟩
  rw [← hreceipt, MailboxReport.receipt, MailboxReport.receipt]
  by_cases hverified : state = .verified
  · rw [hchild, iso_eq_iff.2 (hsame.resolve_left (not_not_intro hverified))]
  · rw [if_pos hverified, if_pos hverified]

theorem outcome_again (houtcome : t.outcome keys found = .ok o) (r : MailboxReport) :
    (r.callAgain t).outcome keys found =
      .ok (o.withIds r.expectationId r.receiptEntryId r.entryId r.jobId) := by
  unfold TerminalChild.outcome at houtcome ⊢
  cases found with
  | none => cases houtcome
  | some entry =>
    simp only [bind_eq_ok] at houtcome ⊢
    obtain ⟨manifest, hmanifest, hash, hhash, u, hsame, child, hchild, receipt, hreceipt, reason,
      hreason, receiptHash, hreceiptHash, u', hbounded, h⟩ := houtcome
    cases h
    exact ⟨manifest, hmanifest, hash, hhash, u, hsame, child, hchild, receipt, hreceipt, reason,
      hreason, receiptHash, hreceiptHash, u', hbounded, rfl⟩

/-- The keys of a call are those of its child's row. -/
theorem call_keys (hchild : second.child = first.child) {t' : TerminalChild}
    (hfirst : first.call state = .ok t) (hsecond : second.call state = .ok t') :
    t'.keys = t.keys := by
  simp only [MailboxReport.call, bind_eq_ok] at hfirst hsecond
  obtain ⟨_, -, h⟩ := hfirst
  obtain ⟨_, -, h'⟩ := hsecond
  cases h
  cases h'
  rw [hchild]
  rfl

/-- A report that says the same again is accepted as long as its record lasts. -/
theorem store_again (hchild : second.child = first.child)
    (hsame : first.child.state ≠ some .verified ∨ first.now.second = second.now.second)
    (hfirst : first.store db = .ok (o, db')) {m : TicketDb} (hgrows : db'.Grows m)
    (hencodable : encodable second.jobId = true) (hfresh : m.jobs.find? second.jobId = none) :
    ∃ m', second.store m =
      .ok (o.withIds second.expectationId second.receiptEntryId second.entryId second.jobId, m') := by
  obtain ⟨hrecord, hkept⟩ := store_onRecord hfirst
  obtain ⟨state, t, keys, entry, hstate, hcall, hkeys, houtcome, -⟩ := store_spec hfirst
  have hstate' : state ≠ .verified ∨ first.now.second = second.now.second := by
    rw [hstate] at hsame
    exact hsame.imp_left fun hne heq => hne (congrArg some heq)
  cases hfound : db.entries.find? (manifestKey keys.parentId) with
  | none =>
    rw [hfound] at houtcome
    cases houtcome
  | some manifest =>
    rw [hfound] at houtcome
    have hlater := hgrows.entries _ _ (hkept.entries _ _ hfound)
    obtain ⟨entry', m', hagain⟩ := recordChildOutcomeAtomic_again (hrecord.grows hgrows) hencodable
      hfresh second.expectationId second.receiptEntryId second.entryId second.clock
    refine ⟨m', ?_⟩
    unfold MailboxReport.store
    rw [hchild, hstate]
    refine bind_eq_ok.2 ⟨second.callAgain t, call_again hchild hstate' hcall, ?_⟩
    unfold storeTerminalChild
    refine bind_eq_ok.2 ⟨keys, hkeys, bind_eq_ok.2 ⟨_, ?_, bind_eq_ok.2 ⟨_, hagain, rfl⟩⟩⟩
    rw [hlater]
    exact outcome_again houtcome second

theorem normalizeReceipt_spec {childId : Str} {fields : Fields} {persistence : Persistence}
    {receipt : OperationReceipt} (h : normalizeReceipt childId fields persistence = .ok receipt) :
    receipt.operationId = childId ∧ receipt.idempotencyKey = receiptKey childId ∧
      presentText (lookup fields "committed_at") = .ok receipt.committedAt := by
  simp only [normalizeReceipt, bind_eq_ok] at h
  obtain ⟨_, _, _, _, _, _, _, _, _, _, _, _, _, _, _, _, _, _, _, _, _, _, _, _, _, _, _, _, _,
    _, _, _, _, _, _, _, _, _, committedAt, hcommitted, _, _, h⟩ := h
  cases h
  exact ⟨rfl, rfl, hcommitted⟩

/-- The receipt of a verified child is stamped with the time of its report. -/
theorem outcome_verified {report : MailboxReport} (hcall : report.call .verified = .ok t)
    (hkeys : t.keys = .ok keys) (houtcome : t.outcome keys found = .ok o) :
    ∃ receipt, o.receipt = some receipt ∧ receipt.operationId = keys.childId ∧
      receipt.committedAt = some (isoUtcSeconds report.now) := by
  simp only [MailboxReport.call, MailboxReport.receipt, bind_eq_ok] at hcall
  obtain ⟨_, hreceipt, hcall⟩ := hcall
  rw [if_neg (not_not_intro rfl)] at hreceipt
  obtain ⟨bytes, -, hfields⟩ := bind_eq_ok.1 hreceipt
  cases hfields
  cases hcall
  unfold TerminalChild.outcome at houtcome
  cases found with
  | none => cases houtcome
  | some entry =>
    simp only [bind_eq_ok] at houtcome
    obtain ⟨manifest, _, _, _, _, _, _, _, _, hnormal, _, _, _, _, _, _, h⟩ := houtcome
    cases h
    unfold outcomeReceipt at hnormal
    simp only at hnormal
    split_ifs at hnormal
    obtain ⟨receipt, hreceipt, rfl⟩ := map_eq_ok.1 hnormal
    obtain ⟨hoperation, -, hcommitted⟩ := normalizeReceipt_spec hreceipt
    refine ⟨receipt, rfl, hoperation, ?_⟩
    exact (Except.ok.inj hcommitted).symm

/-- A verified child can be reported again only at a time of the same second. -/
theorem verified_again (hchild : second.child = first.child)
    (hstate : first.child.state = some .verified) (hfirst : first.store db = .ok (o, db'))
    {m m' : TicketDb} (hgrows : db'.Grows m) {o' : OutcomeArgs}
    (hsecond : second.store m = .ok (o', m')) : first.now.second = second.now.second := by
  obtain ⟨hrecord, -⟩ := store_onRecord hfirst
  obtain ⟨hrecord', hgrows'⟩ := store_onRecord hsecond
  obtain ⟨state, t, keys, _, hsome, hcall, hkeys, houtcome, -⟩ := store_spec hfirst
  obtain ⟨state', t', keys', _, hsome', hcall', hkeys', houtcome', -⟩ := store_spec hsecond
  obtain rfl : ChildState.verified = state := Option.some.inj (hstate.symm.trans hsome)
  obtain rfl : ChildState.verified = state' :=
    Option.some.inj ((hchild ▸ hstate).symm.trans hsome')
  obtain rfl : keys = keys' := by
    rw [call_keys hchild hcall hcall', hkeys] at hkeys'
    exact Except.ok.inj hkeys'
  obtain ⟨receipt, hreceipt, hoperation, hcommitted⟩ := outcome_verified hcall hkeys houtcome
  obtain ⟨receipt', hreceipt', hoperation', hcommitted'⟩ :=
    outcome_verified hcall' hkeys' houtcome'
  obtain ⟨row, heffect⟩ := ((hrecord.grows hgrows).grows hgrows').effect receipt hreceipt
  obtain ⟨row', heffect'⟩ := hrecord'.effect receipt' hreceipt'
  obtain ⟨hrow, -, hstamp⟩ := ReceiptRow.matches_spec heffect.same
  obtain ⟨hrow', -, hstamp'⟩ := ReceiptRow.matches_spec heffect'.same
  -- Both rows are the only receipt of the operation.
  have hmem : row' ∈ m'.receipts.rows :=
    List.mem_of_mem_filter (heffect'.receipt ▸ List.mem_singleton_self row')
  have hfound : row' ∈ m'.receipts.rows.filter fun old =>
      old.idempotencyKey = row.idempotencyKey || old.operationId = row.operationId := by
    rw [List.mem_filter]
    refine ⟨hmem, ?_⟩
    rw [hrow, hoperation, hrow', hoperation']
    simp
  rw [heffect.receipt, List.mem_singleton] at hfound
  rw [hfound, hstamp, hcommitted, hcommitted', Option.some.injEq] at hstamp'
  exact iso_eq_iff.1 hstamp'

end Again

section Claim

variable [PythonText]

/-- The reducer finds that no expected outcome of the ticket is missing. -/
def NoneMissing (ticketId : Str) (db : TicketDb) : Prop :=
  ∃ aggregate, reduceTicketEffects db ticketId = .ok aggregate ∧
    aggregate.missingChildOperationIds = []

omit [PythonText] in
theorem reportReply_eq_true {reply : Except PyError EffectAggregate} :
    reportReply reply = .ok true ↔ ∃ aggregate, reply = .ok aggregate ∧
      aggregate.missingChildOperationIds = [] := by
  cases reply with
  | error e =>
    rw [reportReply]
    split <;> simp
  | ok aggregate => simp [reportReply]

/-- A report of an outcome that is on record already: the sink accepts it, the outcome has one
entry afterwards, and the report says whether the ticket has all its outcomes. -/
structure ReportedOnce (o : OutcomeArgs) (r : MailboxReport) (db : TicketDb) : Prop where
  accepted : ∃ o' db', r.store db = .ok (o', db')
  one : ∃! e, e ∈ (reportMailboxOutcome r db).2.entries.rows ∧
    e.dedupeKey = outcomeKey o.outcome.childOperationId
  reply : (reportMailboxOutcome r db).1 = .ok true ↔
    NoneMissing o.ticketId (reportMailboxOutcome r db).2

theorem reported_again {first second : MailboxReport} {db db' : TicketDb} {o : OutcomeArgs}
    (hchild : second.child = first.child) (hfirst : first.store db = .ok (o, db'))
    (between : List MailboxReport) (hencodable : encodable second.jobId = true)
    (hfresh : (afterReports between db').jobs.find? second.jobId = none) :
    ReportedOnce o second (afterReports between db') ↔
      first.child.state ≠ some .verified ∨ first.now.second = second.now.second := by
  have hgrows : db'.Grows (afterReports between db') := afterReports_grows between db'
  constructor
  · intro h
    obtain ⟨o', m', hsecond⟩ := h.accepted
    by_cases hstate : first.child.state = some .verified
    · exact .inr (verified_again hchild hstate hfirst hgrows hsecond)
    · exact .inl hstate
  · intro hsame
    obtain ⟨m', hsecond⟩ := store_again hchild hsame hfirst hgrows hencodable hfresh
    have hreport := report_of_store hsecond
    obtain ⟨_, entry, -, hfind, -⟩ :=
      (((store_onRecord hfirst).1.grows hgrows).grows (store_onRecord hsecond).2).entry
    obtain ⟨hmem, hkey⟩ := Table.find?_eq_some.1 hfind
    refine ⟨⟨_, m', hsecond⟩, ?_, ?_⟩
    · rw [hreport]
      refine ⟨entry, ⟨hmem, hkey⟩, fun e he => ?_⟩
      exact m'.entries.key_injective he.1 hmem (he.2.trans hkey.symm)
    · rw [hreport]
      exact reportReply_eq_true

end Claim

section Samples

/-- A message to move to the spam folder. -/
def spamManifest : ExecutionManifest where
  parentOperationId := "parent-1"
  authorizationBindingHash := List.replicate 64 0x61
  effectCardinality := .single
  skillId := "email.agent"
  toolId := "email.move_to_spam"
  contractVersion := 1
  descriptorHash := List.replicate 64 0x62
  resourceVersion := 1
  parentArgumentsHash := List.replicate 64 0x63
  children := [⟨"child-1", 0, List.replicate 64 0x64, List.replicate 64 0x65⟩]
  recoveryManifestHash := none
  sensitivity := .normal
  persistence := .standard

/-- The manifest's hash, as its reservation computes it. -/
def spamManifestHash : Str := "01ca41099f755a5c2a138d5c8e53763a7cc6779f5e2cc1e03067ed063678c992"

def spamTicket : Ticket :=
  CreateArgs.row
    { ticketId := "ticket-1", originRequestId := "request-1", sessionId := "session-1"
      userId := "owner", agentId := "jarvis", source := "discord", intent := "email"
      skillId := none, route := "tool", title := "Spam" } ⟨0, zero_lt_maxMicros⟩

/-- The manifest's entry. -/
def spamEntry : TicketEntry :=
  EntryArgs.row
    { entryId := "entry-0", ticketId := "ticket-1", requestId := "request-1"
      entryType := .executionManifest, actorType := "jarvis", actorId := some (text "jarvis")
      structuredPayload := .obj spamManifest.fields, dedupeKey := manifestKey "parent-1" }
    1 ((@entryHash asciiText none (.obj spamManifest.fields)).toOption.getD []) ⟨0, zero_lt_maxMicros⟩

/-- A ticket whose manifest is reserved. -/
def reservedDb : TicketDb :=
  { TicketDb.empty with tickets := ⟨[spamTicket], by simp⟩, entries := ⟨[spamEntry], by simp⟩ }

def verifiedChild : MailboxChild where
  operationId := "child-1"
  parentOperationId := some "parent-1"
  parentManifestHash := some spamManifestHash
  p7ManifestHash := some spamManifestHash
  status := "verified"
  lastErrorCode := none
  gmailMessageId := "message-1"

def firstReport : MailboxReport where
  child := verifiedChild
  now := ⟨1000000, second_lt_maxMicros⟩
  clock := ⟨1000000, second_lt_maxMicros⟩
  expectationId := "expectation-1"
  receiptEntryId := "entry-1"
  entryId := "entry-2"
  jobId := "job-1"

/-- The verified child once more, `micros` after the epoch. -/
def laterReport (micros : Instant) : MailboxReport :=
  { firstReport with
    now := micros, expectationId := "expectation-3", receiptEntryId := "entry-5"
    entryId := "entry-6", jobId := "job-3" }

/-- The manifest as it is hashed. -/
def spamManifestText : Str :=
  text "\x7b\"authorization_binding_hash\":\"" ++ List.replicate 64 0x61 ++
    text "\",\"children\":[\x7b\"arguments_hash\":\"" ++ List.replicate 64 0x65 ++
    text "\",\"child_index\":0,\"child_operation_id\":\"child-1\",\"target_hash\":\"" ++
    List.replicate 64 0x64 ++ text "\"\x7d],\"contract_version\":1,\"descriptor_hash\":\"" ++
    List.replicate 64 0x62 ++
    text "\",\"effect_cardinality\":\"single\",\"expected_child_count\":1," ++
    text "\"parent_arguments_hash\":\"" ++ List.replicate 64 0x63 ++
    text "\",\"parent_operation_id\":\"parent-1\",\"persistence\":\"standard\"," ++
    text "\"recovery_manifest_hash\":null,\"resource_version\":1,\"schema_version\":1," ++
    text "\"sensitivity\":\"normal\",\"skill_id\":\"email.agent\"," ++
    text "\"tool_id\":\"email.move_to_spam\"\x7d"

theorem spamManifest_render :
    @render asciiText true (.obj spamManifest.fields) = spamManifestText := by
  decide +kernel

theorem spamManifest_digest :
    Sha256.hexdigest (spamManifestText.map Fin.val) = spamManifestHash := by
  decide +kernel

theorem spamManifest_accepted :
    @normalizeExecutionManifest asciiText (.obj spamManifest.fields) = .ok spamManifest ∧
      @contentHash asciiText (.obj spamManifest.fields) = .ok spamManifestHash := by
  have hchecks : (@validatePersisted asciiText 9 (.obj spamManifest.fields) = .ok () ∧
      (Json.obj spamManifest.fields).hasLongInt = false) ∧
        spamManifestText.length ≤ maxPersistedBytes := by decide +kernel
  have hbounded : @boundedControlPayload asciiText spamManifest.fields = .ok () :=
    @boundedControlPayload_of_render asciiText (fun _ => rfl) _ _ hchecks.1.1 hchecks.1.2
      spamManifest_render hchecks.2
  have hread : @readManifest asciiText spamManifest.fields = .ok spamManifest := by decide +kernel
  exact ⟨bind_eq_ok.2 ⟨_, hread, bind_eq_ok.2 ⟨(), hbounded, rfl⟩⟩,
    @contentHash_of_render asciiText (fun _ => rfl) _ _ _ hchecks.1.2 spamManifest_render
      spamManifest_digest⟩

/-- What a verified report does where the spam manifest is reserved. -/
def spamStore (r : MailboxReport) (db : TicketDb)
    (p : Except PyError (OutcomeArgs × TicketDb) → Bool) : Bool :=
  (@MailboxReport.call asciiText r .verified).toOption.any fun t =>
    (@TerminalChild.keys asciiText t).toOption.any fun keys =>
      keys.manifestHash = spamManifestHash &&
        (db.entries.find? (manifestKey keys.parentId)).any fun entry =>
          entry.structuredPayload = .obj spamManifest.fields && p (do
            let outcome ← @TerminalChild.recorded asciiText t keys entry spamManifest
            let (_, db') ← @recordChildOutcomeAtomic asciiText outcome r.clock db
            .ok (outcome, db'))

theorem store_of_spamStore {r : MailboxReport} {db : TicketDb}
    {p : Except PyError (OutcomeArgs × TicketDb) → Bool}
    (hstate : @MailboxChild.state asciiText r.child = some .verified)
    (h : spamStore r db p = true) :
    p (@MailboxReport.store asciiText r db) = true ∧
      ∃ t, @MailboxReport.call asciiText r .verified = .ok t := by
  obtain ⟨t, hcall, h⟩ := ok_of_any h
  obtain ⟨keys, hkeys, h⟩ := ok_of_any h
  obtain ⟨hhash, h⟩ := Bool.and_eq_true_iff.1 h
  obtain ⟨entry, hfind, h⟩ := (Option.any_eq_true _ _).1 h
  obtain ⟨hpayload, h⟩ := Bool.and_eq_true_iff.1 h
  have hm := spamManifest_accepted.1
  have hkeysHash := spamManifest_accepted.2
  rw [← of_decide_eq_true hpayload] at hm
  rw [← of_decide_eq_true hhash] at hkeysHash
  rw [@store_of_manifest asciiText r _ t keys db entry spamManifest hstate hcall hkeys hfind hm
    hkeysHash]
  exact ⟨h, t, hcall⟩

/-- What the reducer finds where the spam manifest is the only one of the ticket. -/
def spamReduced (db : TicketDb) (ticketId : Str) : Bool :=
  match db.listExecutionManifests ticketId with
  | [entry] =>
    entry.structuredPayload = .obj spamManifest.fields && (show Except PyError EffectAggregate from do
      let expected ← bindChildren spamManifest spamManifestHash spamManifest.children []
      let outcomes ← @outcomesByChild asciiText expected (db.listEntries ticketId) []
      require (outcomes.all fun p => receiptsAgree (db.listReceipts ticketId) p.1 p.2)
        (.valueError "ticket_child_outcome_receipt_conflict")
      .ok (aggregateOf expected outcomes)).toOption.any
        fun aggregate => aggregate.missingChildOperationIds = []
  | _ => false

theorem noneMissing_of_spamReduced {db : TicketDb} {ticketId : Str}
    (h : spamReduced db ticketId = true) : @NoneMissing asciiText ticketId db := by
  unfold spamReduced at h
  split at h
  · next entry hlist =>
    obtain ⟨hpayload, h⟩ := Bool.and_eq_true_iff.1 h
    obtain ⟨aggregate, haggregate, hmissing⟩ := ok_of_any h
    obtain ⟨hm, hhash⟩ := spamManifest_accepted
    rw [← of_decide_eq_true hpayload] at hm
    have hexpected : @expectedChildren asciiText [entry] [] =
        bindChildren spamManifest spamManifestHash spamManifest.children [] := by
      rw [@expectedChildren_of_manifest asciiText _ _ _ hm hhash]
      cases bindChildren spamManifest spamManifestHash spamManifest.children [] <;> rfl
    refine ⟨aggregate, ?_, of_decide_eq_true hmissing⟩
    unfold reduceTicketEffects reduceEffects
    rw [hlist, if_neg (List.cons_ne_nil _ _), hexpected]
    exact haggregate
  · cases h

/-- The first report is recorded, and the last one of the ticket's outcomes; a report a second later
is a conflict. -/
theorem firstReport_checked : ∃ o db,
    @MailboxReport.store asciiText firstReport reservedDb = .ok (o, db) ∧
      db.jobs.find? "job-3" = none ∧
      @NoneMissing asciiText o.ticketId (@reportMailboxOutcome asciiText
        (laterReport ⟨2000000, by decide⟩) db).2 ∧
      (@reportMailboxOutcome asciiText (laterReport ⟨2000000, by decide⟩) db).1 = .ok false := by
  have hstate : @MailboxChild.state asciiText verifiedChild = some .verified := by decide +kernel
  have hcheck : spamStore firstReport reservedDb (fun x => x.toOption.any fun (o, db) =>
      db.jobs.find? "job-3" = none && (spamReduced db o.ticketId &&
        spamStore (laterReport ⟨2000000, by decide⟩) db fun y =>
          match y with
          | .ok _ => false
          | .error e => reportCaught e)) = true := by decide +kernel
  obtain ⟨h, -⟩ := store_of_spamStore hstate hcheck
  obtain ⟨⟨o, db⟩, hstore, h⟩ := ok_of_any h
  obtain ⟨hfresh, h⟩ := Bool.and_eq_true_iff.1 h
  obtain ⟨hreduced, hlater⟩ := Bool.and_eq_true_iff.1 h
  obtain ⟨hrefused, t, hcall⟩ :=
    store_of_spamStore (r := laterReport ⟨2000000, by decide⟩) hstate hlater
  split at hrefused
  · cases hrefused
  · next e herror =>
    have hreply : @reportMailboxOutcome asciiText (laterReport ⟨2000000, by decide⟩) db =
        (.ok false, db) := by
      rw [@report_of_refused asciiText _ _ t db e hstate hcall herror, reportReply, if_pos hrefused]
    refine ⟨o, db, hstore, of_decide_eq_true hfresh, ?_, ?_⟩
    · rw [hreply]
      exact noneMissing_of_spamReduced hreduced
    · rw [hreply]

theorem later_report_refused : ∃ o db,
    @MailboxReport.store asciiText firstReport reservedDb = .ok (o, db) ∧
      @NoneMissing asciiText o.ticketId (@reportMailboxOutcome asciiText
        (laterReport ⟨2000000, by decide⟩) db).2 ∧
      (@reportMailboxOutcome asciiText (laterReport ⟨2000000, by decide⟩) db).1 = .ok false := by
  obtain ⟨o, db, hstore, -, hnone, hreply⟩ := firstReport_checked
  exact ⟨o, db, hstore, hnone, hreply⟩

theorem reported_again_same_second : ∃ o db,
    @MailboxReport.store asciiText firstReport reservedDb = .ok (o, db) ∧
      (@ReportedOnce asciiText o (laterReport ⟨1500000, by decide⟩)
          (@afterReports asciiText [] db) ↔
        @MailboxChild.state asciiText firstReport.child ≠ some .verified ∨
          firstReport.now.second = (laterReport ⟨1500000, by decide⟩).now.second) := by
  obtain ⟨o, db, hstore, hfresh, -⟩ := firstReport_checked
  exact ⟨o, db, hstore, @reported_again asciiText firstReport (laterReport ⟨1500000, by decide⟩)
    reservedDb db o rfl hstore [] (by decide +kernel) hfresh⟩

end Samples

end HardyAI.Email
