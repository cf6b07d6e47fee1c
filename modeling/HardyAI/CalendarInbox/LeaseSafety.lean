import HardyAI.CalendarInbox.LeaseRuns

/-! What calls of `run_due` that run side by side leave to each other. -/

open Foundation Foundation.Json Foundation.Program Foundation.Machine Foundation.Trace

namespace HardyAI.CalendarInbox

section Guarantees

/-- The latest claim of the run is the one that call `v` made at `since`. -/
def HoldsRun (s : System) (v : Nat) (row : RunRow) (since : Str) : Prop :=
  heldRun ((history? s v).getD []) = some ⟨row.runId, row.attemptCount, since⟩

/-- The latest claim of the message is the one that call `v` made at `since`. -/
def HoldsMessage (s : System) (v : Nat) (row : MessageRow) (since : Str) : Prop :=
  heldMessage ((history? s v).getD []) = some ⟨row.gmailMessageId, row.attemptCount, since⟩

/-- The run that the call has claimed has been claimed again since. -/
def OvertakenOnRun (s : System) (i : Nat) : Prop :=
  ∃ x row, heldRun ((history? s i).getD []) = some x ∧ s.state.runs.find? x.key = some row ∧
    x.attempt < row.attemptCount

/-- The message that the call has claimed has been claimed again since. -/
def OvertakenOnMessage (s : System) (i : Nat) : Prop :=
  ∃ x row, heldMessage ((history? s i).getD []) = some x ∧
    s.state.messages.find? x.key = some row ∧ x.attempt < row.attemptCount

/-- The run is neither claimed again nor given up. -/
def SparesRun (s' : System) (row : RunRow) : Prop :=
  ∃ row', s'.state.runs.find? row.runId = some row' ∧ row'.attemptCount = row.attemptCount ∧
    (row'.status = .deadLetter → row.status = .deadLetter)

/-- The message is neither claimed again nor given up. -/
def SparesMessage (s' : System) (row : MessageRow) : Prop :=
  ∃ row', s'.state.messages.find? row.gmailMessageId = some row' ∧
    row'.attemptCount = row.attemptCount ∧ (row'.status = .deadLetter → row.status = .deadLetter)

variable [PythonText]

/-- What every step has to respect. A lease lasts for a claim that comes no later than the minutes
of the lease after it, by the time of the call that makes the claim. -/
structure Sound (s : System) (e : Event) : Prop where
  settled : ∀ row ∈ s.state.messages.rows, row.status.isDone = true →
    ∃ row', (inboxMachine.step s e).state.messages.find? row.gmailMessageId = some row' ∧
      row'.status = row.status
  reconciled : ∀ i env worker history id, e = .step i env →
    pending? s i = some (worker, history, .reconcileMessage id) →
    ∀ row, s.state.messages.find? id = some row → row.status.isDone = false
  completed : ∀ row ∈ s.state.runs.rows, row.status.isDone = true →
    ∃ row', (inboxMachine.step s e).state.runs.find? row.runId = some row' ∧
      row'.status = row.status
  runAttempts : ∀ row ∈ (inboxMachine.step s e).state.runs.rows, row.attemptCount ≤ maxRunAttempts
  messageAttempts : ∀ row ∈ (inboxMachine.step s e).state.messages.rows,
    row.attemptCount ≤ maxMessageAttempts
  leasedRun : ∀ i env worker history op, e = .step i env →
    pending? s i = some (worker, history, op) → ∀ row ∈ s.state.runs.rows, ∀ v since, v ≠ i →
    HoldsRun s v row since →
    (∀ slot now stale, op = .claimRun slot now stale → row.slotKey = slot → stale ≤ since) →
    SparesRun (inboxMachine.step s e) row
  leasedMessage : ∀ i env worker history op, e = .step i env →
    pending? s i = some (worker, history, op) → ∀ row ∈ s.state.messages.rows, ∀ v since, v ≠ i →
    HoldsMessage s v row since →
    (∀ ref runId now stale, op = .claimMessage ref runId now stale →
      row.gmailMessageId = ref.messageId → stale ≤ since) →
    SparesMessage (inboxMachine.step s e) row

/-- No claim finds the lease of another call lasting with all attempts used, no call goes on with
a run or a message that was claimed again since, and a completed run is recorded. -/
def FencedRequest (s : System) (i : Nat) (env : Env) : Op → Prop
  | .claimRun slot _ stale => ∀ row ∈ s.state.runs.rows, row.slotKey = slot → row.status = .held →
    ∀ v since, v ≠ i → HoldsRun s v row since → stale ≤ since → row.attemptCount < maxRunAttempts
  | .claimMessage ref _ _ stale => ∀ row ∈ s.state.messages.rows,
    row.gmailMessageId = ref.messageId → row.status = .held → ∀ v since, v ≠ i →
    HoldsMessage s v row since → stale ≤ since → row.attemptCount < maxMessageAttempts
  | .finishRun .. | .markRunFailed .. => ¬ OvertakenOnRun s i
  | .reconcileMessage _ | .finishMessage .. | .markMessageFailed .. => ¬ OvertakenOnMessage s i
  | .record (.runCompleted _) => env.raises = none
  | .record (.runStarted ..) | .record (.runFailed ..) | .record (.messageFailed ..)
  | .runAttempts _ | .messageAttempts _ | .recordEvent _ | .openSession _
  | .listCandidateMessages => True

def Fenced (s : System) (e : Event) : Prop :=
  ∀ i env, e = .step i env → ∀ worker history op, pending? s i = some (worker, history, op) →
    FencedRequest s i env op

end Guarantees

section Views

variable {s : System} {i v : Nat} {since : Str}

theorem row_of_holdsRun {h : Holding Str Str} {l : Lease RunDone Str}
    (hholds : (runLedger s).Holds v h l) :
    ∃ row ∈ s.state.runs.rows, row.runId = h.key ∧ row.toLease = l ∧ HoldsRun s v row h.since := by
  obtain ⟨hheld, hlease, hattempt⟩ := hholds
  obtain ⟨row, hrow, rfl⟩ := Option.map_eq_some_iff.1 hlease
  obtain ⟨hmem, hkey⟩ := Table.find?_eq_some.1 hrow
  have hheld' : heldRun ((history? s v).getD []) = some h := hheld
  exact ⟨row, hmem, hkey, rfl, by rw [HoldsRun, hheld', hkey, ← hattempt]⟩

theorem holds_of_row {row : RunRow} (hrow : row ∈ s.state.runs.rows) (h : HoldsRun s v row since) :
    (runLedger s).Holds v ⟨row.runId, row.attemptCount, since⟩ row.toLease := by
  refine ⟨h, ?_, rfl⟩
  simp only [runLedger, runLeases, Table.find?_of_mem hrow, Option.map_some]

theorem messageRow_of_holds {h : Holding Str Str} {l : Lease MessageDone Str}
    (hholds : (messageLedger s).Holds v h l) :
    ∃ row ∈ s.state.messages.rows, row.gmailMessageId = h.key ∧ row.toLease = l ∧
      HoldsMessage s v row h.since := by
  obtain ⟨hheld, hlease, hattempt⟩ := hholds
  obtain ⟨row, hrow, rfl⟩ := Option.map_eq_some_iff.1 hlease
  obtain ⟨hmem, hkey⟩ := Table.find?_eq_some.1 hrow
  have hheld' : heldMessage ((history? s v).getD []) = some h := hheld
  exact ⟨row, hmem, hkey, rfl, by rw [HoldsMessage, hheld', hkey, ← hattempt]⟩

theorem holds_of_messageRow {row : MessageRow} (hrow : row ∈ s.state.messages.rows)
    (h : HoldsMessage s v row since) :
    (messageLedger s).Holds v ⟨row.gmailMessageId, row.attemptCount, since⟩ row.toLease := by
  refine ⟨h, ?_, rfl⟩
  simp only [messageLedger, messageLeases, Table.find?_of_mem hrow, Option.map_some]

/-- A call that holds a claim and was not overtaken holds the latest claim. -/
theorem holds_of_not_overtaken {k : Str} (hsane : Ledger.Sane maxRunAttempts (runLedger s))
    (hheld : HoldsKey (heldRun ((history? s i).getD [])) k) (hnot : ¬ OvertakenOnRun s i) :
    ∃ h l, (runLedger s).Holds i h l ∧ h.key = k := by
  obtain ⟨x, hx, rfl⟩ := hheld
  obtain ⟨l, hl, hle⟩ := hsane.known i x hx
  refine ⟨x, l, ⟨hx, hl, ?_⟩, rfl⟩
  obtain ⟨row, hrow, rfl⟩ := Option.map_eq_some_iff.1 hl
  by_contra hne
  exact hnot ⟨x, row, hx, hrow, lt_of_le_of_ne hle hne⟩

theorem holdsMessage_of_not_overtaken {k : Str}
    (hsane : Ledger.Sane maxMessageAttempts (messageLedger s))
    (hheld : HoldsKey (heldMessage ((history? s i).getD [])) k)
    (hnot : ¬ OvertakenOnMessage s i) : ∃ h l, (messageLedger s).Holds i h l ∧ h.key = k := by
  obtain ⟨x, hx, rfl⟩ := hheld
  obtain ⟨l, hl, hle⟩ := hsane.known i x hx
  refine ⟨x, l, ⟨hx, hl, ?_⟩, rfl⟩
  obtain ⟨row, hrow, rfl⟩ := Option.map_eq_some_iff.1 hl
  by_contra hne
  exact hnot ⟨x, row, hx, hrow, lt_of_le_of_ne hle hne⟩

/-- The run that a claim answers for is the one of its slot. -/
theorem slotKey_of_claimRun {db db' : InboxDb} {freshId slot now stale : Str} {limit : Int}
    {claim : RunClaim} (hclaim : claimRun freshId slot now stale limit db = .ok (claim, db'))
    {row : RunRow} (hrow : row ∈ db.runs.rows) (hkey : row.runId = claim.runId) :
    row.slotKey = slot := by
  unfold claimRun at hclaim
  split at hclaim
  · dsimp only at hclaim
    split at hclaim
    · cases hclaim
    · next runs hinsert =>
      cases hclaim
      have hfresh := Table.find?_eq_none.1 (Table.insert?_eq_some hinsert).1 row hrow
      exact absurd hkey hfresh
  · next old hold =>
    have hslot : old.slotKey = slot := by simpa using List.find?_some hold
    have hmem : old ∈ db.runs.rows := List.mem_of_find?_eq_some hold
    have hid : claim.runId = old.runId := by
      split at hclaim <;> cases hclaim <;> rfl
    rwa [db.runs.key_injective hrow hmem (hkey.trans hid)]

end Views

section Invariant

/-- What the steps of a fenced run keep up. -/
structure Inv (s : System) : Prop where
  saneRuns : Ledger.Sane maxRunAttempts (runLedger s)
  saneMessages : Ledger.Sane maxMessageAttempts (messageLedger s)
  orderlyRuns : Ledger.Orderly maxRunAttempts (runLedger s)
  orderlyMessages : Ledger.Orderly maxMessageAttempts (messageLedger s)
  recorded : ∀ worker result e, Entry.ran worker (.record (.runCompleted result)) (.error e) ∉ s.log
  follows : ∀ t ∈ s.threads, Follows Allowed s.log t

variable {s : System} {i worker : Nat} {env : Env} {history : History Op.Reply} {op : Op}

theorem not_unrecorded (hs : Inv s) (hpending : pending? s i = some (worker, history, op)) :
    ¬ Unrecorded history := by
  rintro ⟨result, e, hmem⟩
  have hlogged := (Follows.allowed hs.follows hpending).2
  exact hs.recorded worker result e (hlogged.subset (List.mem_map_of_mem hmem))

/-- A fenced request is a fenced act on the ledger of the runs. -/
theorem fenced_runAct (hs : Inv s) (hpending : pending? s i = some (worker, history, op))
    (hfenced : FencedRequest s i env op) {a : LeaseAct Str RunDone Str}
    (ha : runAct i op (exec env op s.state).1 = some a) :
    (runLedger s).Fenced maxRunAttempts a := by
  have hallowed := (Follows.allowed hs.follows hpending).1
  have hhistory : (history? s i).getD [] = history := by rw [history?_of_pending hpending]; rfl
  cases op with
  | claimRun slot now stale =>
    rcases respondTo_cases env (claimRun env.freshId slot now stale maxRunAttempts) s.state with
      ⟨e, hexec⟩ | ⟨claim, db', hclaim, hexec⟩
    · rw [exec, hexec] at ha
      cases ha
    · rw [exec, hexec] at ha
      cases ha
      intro v h l hne hholds hkey hstatus hfresh
      obtain ⟨row, hrow, hid, rfl, hholdsRun⟩ := row_of_holdsRun hholds
      have hslot := slotKey_of_claimRun hclaim hrow (hid.trans hkey)
      exact hfenced row hrow hslot hstatus v h.since hne hholdsRun hfresh
  | finishRun runId result now =>
    have hheld : HoldsKey (heldRun ((history? s i).getD [])) runId := hhistory ▸ hallowed
    have hholds := holds_of_not_overtaken hs.saneRuns hheld hfenced
    rcases respond_cases env () s.state (finishRun runId result now s.state) with
      ⟨e, hexec⟩ | hexec
    · rw [exec, hexec] at ha
      cases ha
    · rw [exec, hexec] at ha
      cases ha
      exact hholds
  | markRunFailed runId status error now =>
    have hheld : HoldsKey (heldRun ((history? s i).getD [])) runId :=
      hhistory ▸ hallowed.resolve_right (not_unrecorded hs hpending)
    have hholds := holds_of_not_overtaken hs.saneRuns hheld hfenced
    rcases respond_cases env () s.state (markRunFailed runId status error now s.state) with
      ⟨e, hexec⟩ | hexec
    · rw [exec, hexec] at ha
      cases ha
    · rw [exec, hexec] at ha
      cases ha
      exact hholds
  | _ => exact absurd ha (by simp [runAct])

/-- A fenced request is a fenced act on the ledger of the messages. -/
theorem fenced_messageAct (hs : Inv s) (hpending : pending? s i = some (worker, history, op))
    (hfenced : FencedRequest s i env op) {a : LeaseAct Str MessageDone Str}
    (ha : messageAct i op (exec env op s.state).1 = some a) :
    (messageLedger s).Fenced maxMessageAttempts a := by
  have hallowed := (Follows.allowed hs.follows hpending).1
  have hhistory : (history? s i).getD [] = history := by rw [history?_of_pending hpending]; rfl
  cases op with
  | claimMessage ref runId now stale =>
    rcases respondTo_cases env (claimMessage ref runId now stale maxMessageAttempts) s.state with
      ⟨e, hexec⟩ | ⟨claim, db', hclaim, hexec⟩
    · rw [exec, hexec] at ha
      cases ha
    · rw [exec, hexec] at ha
      cases ha
      intro v h l hne hholds hkey hstatus hfresh
      obtain ⟨row, hrow, hid, rfl, hholdsMessage⟩ := messageRow_of_holds hholds
      exact hfenced row hrow (hid.trans hkey) hstatus v h.since hne hholdsMessage hfresh
  | reconcileMessage id =>
    have hheld : HoldsKey (heldMessage ((history? s i).getD [])) id := hhistory ▸ hallowed
    have hact : messageAct i (.reconcileMessage id) (exec env (.reconcileMessage id) s.state).1 =
        some (.use i id) := by simp only [messageAct]
    rw [hact] at ha
    cases ha
    exact holdsMessage_of_not_overtaken hs.saneMessages hheld hfenced
  | finishMessage id outcome ignored now =>
    have hheld : HoldsKey (heldMessage ((history? s i).getD [])) id := hhistory ▸ hallowed
    have hholds := holdsMessage_of_not_overtaken hs.saneMessages hheld hfenced
    rcases respond_cases env () s.state (finishMessage id outcome ignored now s.state) with
      ⟨e, hexec⟩ | hexec
    · rw [exec, hexec] at ha
      cases ha
    · rw [exec, hexec] at ha
      cases ha
      exact hholds
  | markMessageFailed id status error now =>
    have hheld : HoldsKey (heldMessage ((history? s i).getD [])) id := hhistory ▸ hallowed
    have hholds := holdsMessage_of_not_overtaken hs.saneMessages hheld hfenced
    rcases respond_cases env () s.state (markMessageFailed id status error now s.state) with
      ⟨e, hexec⟩ | hexec
    · rw [exec, hexec] at ha
      cases ha
    · rw [exec, hexec] at ha
      cases ha
      exact hholds
  | _ => exact absurd ha (by simp [messageAct])

variable [PythonText] {e : Event}

theorem runLedger_start (call : Call) : runLedger (inboxMachine.step s (.start call)) = runLedger s :=
  Ledger.ext rfl (funext fun v => congrArg heldRun (history?_start call v))

theorem messageLedger_start (call : Call) :
    messageLedger (inboxMachine.step s (.start call)) = messageLedger s :=
  Ledger.ext rfl (funext fun v => congrArg heldMessage (history?_start call v))

/-- The ledgers stay sane in every run, fenced or not. -/
theorem sane_step (e : Event) (hruns : (runLedger s).Sane maxRunAttempts)
    (hmessages : (messageLedger s).Sane maxMessageAttempts) :
    (runLedger (inboxMachine.step s e)).Sane maxRunAttempts ∧
      (messageLedger (inboxMachine.step s e)).Sane maxMessageAttempts := by
  cases e with
  | start call => exact ⟨(runLedger_start call).symm ▸ hruns, (messageLedger_start call).symm ▸ hmessages⟩
  | outside o => exact o.elim
  | step i env =>
    cases hpending : pending? s i with
    | none =>
      rw [Machine.step, serve_of_idle hpending]
      exact ⟨hruns, hmessages⟩
    | some p =>
      obtain ⟨worker, history, op⟩ := p
      rw [Machine.step, runLedger_serve hpending, messageLedger_serve hpending]
      exact ⟨hruns.after (by decide) _, hmessages.after (by decide) _⟩

theorem inv_step (hs : Inv s) (hfenced : Fenced s e) : Inv (inboxMachine.step s e) := by
  have hsane := sane_step e hs.saneRuns hs.saneMessages
  have hfollows : ∀ t ∈ (inboxMachine.step s e).threads,
      Follows Allowed (inboxMachine.step s e).log t := by
    refine step_follows (fun call => ?_) nofun e hs.follows
    exact Safe.bind (safe_runDue call.config call.now) fun _ _ _ => safe_pure
  cases e with
  | start call =>
    exact ⟨hsane.1, hsane.2, (runLedger_start call).symm ▸ hs.orderlyRuns,
      (messageLedger_start call).symm ▸ hs.orderlyMessages, hs.recorded, hfollows⟩
  | outside o => exact o.elim
  | step i env =>
    cases hpending : pending? s i with
    | none =>
      rw [Machine.step, serve_of_idle hpending]
      exact hs
    | some p =>
      obtain ⟨worker, history, op⟩ := p
      have hrequest := hfenced i env rfl worker history op hpending
      refine ⟨hsane.1, hsane.2, ?_, ?_, ?_, hfollows⟩
      · rw [Machine.step, runLedger_serve hpending]
        exact hs.orderlyRuns.after hs.saneRuns fun a => fenced_runAct hs hpending hrequest
      · rw [Machine.step, messageLedger_serve hpending]
        exact hs.orderlyMessages.after hs.saneMessages fun a =>
          fenced_messageAct hs hpending hrequest
      · intro worker' result e' hmem
        rw [Machine.step, (serve_of_pending hpending).2] at hmem
        rcases List.mem_append.1 hmem with hmem | hmem
        · exact hs.recorded worker' result e' hmem
        · obtain ⟨rfl, rfl, hreply⟩ := Entry.ran.inj (List.mem_singleton.1 hmem)
          have hquiet : env.raises = none := hrequest
          have hraised := eq_of_heq hreply
          simp only [inboxMachine, exec, respond, hquiet] at hraised
          cases hraised

theorem inv_systemAfter (es : List Event)
    (hfenced : ∀ before e rest, es = before ++ e :: rest → Fenced (systemAfter before) e) :
    Inv (systemAfter es) := by
  refine run_invariant_of_forall (fun s e hf hs => inv_step hs hf) ?_ es hfenced
  exact ⟨Ledger.sane_empty, Ledger.sane_empty, Ledger.orderly_empty, Ledger.orderly_empty, by simp [Machine.start],
    by simp [Machine.start]⟩

end Invariant

section Safety

variable [PythonText] {s : System} {i v worker : Nat} {env : Env} {history : History Op.Reply}
  {op : Op} {e : Event} {since : Str}

omit [PythonText] in
theorem run_of_lease {s' : System} {row : RunRow}
    (h : (runLedger s').lease row.runId = some row.toLease) :
    ∃ row', s'.state.runs.find? row.runId = some row' ∧ row'.toLease = row.toLease :=
  Option.map_eq_some_iff.1 h

omit [PythonText] in
theorem message_of_lease {s' : System} {row : MessageRow}
    (h : (messageLedger s').lease row.gmailMessageId = some row.toLease) :
    ∃ row', s'.state.messages.find? row.gmailMessageId = some row' ∧ row'.toLease = row.toLease :=
  Option.map_eq_some_iff.1 h

/-- A step changes the ledger of the runs by fenced acts only. -/
theorem runLedger_step (hs : Inv s) (hfenced : Fenced s e) :
    ∃ a, runLedger (inboxMachine.step s e) = (runLedger s).after maxRunAttempts a ∧
      ∀ a', a = some a' → (runLedger s).Fenced maxRunAttempts a' := by
  cases e with
  | start call => exact ⟨none, runLedger_start call, nofun⟩
  | outside o => exact o.elim
  | step i env =>
    cases hpending : pending? s i with
    | none => exact ⟨none, by rw [Machine.step, serve_of_idle hpending]; rfl, nofun⟩
    | some p =>
      obtain ⟨worker, history, op⟩ := p
      exact ⟨_, runLedger_serve hpending, fun a' =>
        fenced_runAct hs hpending (hfenced i env rfl worker history op hpending)⟩

theorem messageLedger_step (hs : Inv s) (hfenced : Fenced s e) :
    ∃ a, messageLedger (inboxMachine.step s e) = (messageLedger s).after maxMessageAttempts a ∧
      ∀ a', a = some a' → (messageLedger s).Fenced maxMessageAttempts a' := by
  cases e with
  | start call => exact ⟨none, messageLedger_start call, nofun⟩
  | outside o => exact o.elim
  | step i env =>
    cases hpending : pending? s i with
    | none => exact ⟨none, by rw [Machine.step, serve_of_idle hpending]; rfl, nofun⟩
    | some p =>
      obtain ⟨worker, history, op⟩ := p
      exact ⟨_, messageLedger_serve hpending, fun a' =>
        fenced_messageAct hs hpending (hfenced i env rfl worker history op hpending)⟩

omit [PythonText] in
/-- A claim of the run is a claim of its slot. -/
theorem claimRun_of_runAct {row : RunRow} (hrow : row ∈ s.state.runs.rows) {w : Nat}
    {now stale : Str}
    (ha : runAct i op (exec env op s.state).1 = some (.claim w row.runId now stale)) :
    ∃ slot, row.slotKey = slot ∧ op = .claimRun slot now stale := by
  cases op with
  | claimRun slot now' stale' =>
    rcases respondTo_cases env (claimRun env.freshId slot now' stale' maxRunAttempts) s.state with
      ⟨e, hexec⟩ | ⟨claim, db', hclaim, hexec⟩
    · rw [exec, hexec] at ha
      cases ha
    · rw [exec, hexec] at ha
      obtain ⟨-, hkey, rfl, rfl⟩ := LeaseAct.claim.inj (Option.some.inj ha)
      exact ⟨slot, slotKey_of_claimRun hclaim hrow hkey.symm, rfl⟩
  | _ => generalize (exec env _ s.state).1 = r at ha; cases r <;> cases ha

omit [PythonText] in
theorem claimMessage_of_messageAct {id now stale : Str} {w : Nat} {r : op.Reply}
    (ha : messageAct i op r = some (.claim w id now stale)) :
    ∃ ref runId, id = ref.messageId ∧ op = .claimMessage ref runId now stale := by
  cases op with
  | claimMessage ref runId now' stale' =>
    cases r with
    | error e => cases ha
    | ok claim =>
      obtain ⟨-, hkey, rfl, rfl⟩ := LeaseAct.claim.inj (Option.some.inj ha)
      exact ⟨ref, runId, hkey.symm, rfl⟩
  | _ => cases r <;> cases ha

theorem sparesRun_of_holds (hs : Inv s) (hfenced : Fenced s (.step i env))
    (hpending : pending? s i = some (worker, history, op)) {row : RunRow}
    (hrow : row ∈ s.state.runs.rows) (hne : v ≠ i) (hholds : HoldsRun s v row since)
    (hlasts : ∀ slot now stale, op = .claimRun slot now stale → row.slotKey = slot →
      stale ≤ since) : SparesRun (inboxMachine.step s (.step i env)) row := by
  have hrequest := hfenced i env rfl worker history op hpending
  have hlease : (runLedger (inboxMachine.step s (.step i env))).lease row.runId =
      some row.toLease := by
    rw [Machine.step, runLedger_serve hpending]
    have hledger := holds_of_row hrow hholds
    cases ha : runAct i op (exec env op s.state).1 with
    | none => exact hledger.2.1
    | some a =>
      have hact := fenced_runAct hs hpending hrequest ha
      have hother : v ≠ a.worker := worker_runAct ha ▸ hne
      refine Ledger.lease_act_of_holds hs.saneRuns hs.orderlyRuns hact hledger hother ?_
      rintro w now stale rfl
      obtain ⟨slot, hslot, rfl⟩ := claimRun_of_runAct hrow ha
      exact hlasts slot now stale rfl hslot
  obtain ⟨row', hrow', hsame⟩ := run_of_lease hlease
  refine ⟨row', hrow', congrArg Lease.attemptCount hsame, fun hdead => ?_⟩
  exact (congrArg Lease.status hsame).symm.trans hdead

theorem sparesMessage_of_holds (hs : Inv s) (hfenced : Fenced s (.step i env))
    (hpending : pending? s i = some (worker, history, op)) {row : MessageRow}
    (hrow : row ∈ s.state.messages.rows) (hne : v ≠ i) (hholds : HoldsMessage s v row since)
    (hlasts : ∀ ref runId now stale, op = .claimMessage ref runId now stale →
      row.gmailMessageId = ref.messageId → stale ≤ since) :
    SparesMessage (inboxMachine.step s (.step i env)) row := by
  have hrequest := hfenced i env rfl worker history op hpending
  have hlease : (messageLedger (inboxMachine.step s (.step i env))).lease row.gmailMessageId =
      some row.toLease := by
    rw [Machine.step, messageLedger_serve hpending]
    have hledger := holds_of_messageRow hrow hholds
    cases ha : messageAct i op (exec env op s.state).1 with
    | none => exact hledger.2.1
    | some a =>
      have hact := fenced_messageAct hs hpending hrequest ha
      have hother : v ≠ a.worker := worker_messageAct ha ▸ hne
      refine Ledger.lease_act_of_holds hs.saneMessages hs.orderlyMessages hact hledger hother ?_
      rintro w now stale rfl
      obtain ⟨ref, runId, hid, rfl⟩ := claimMessage_of_messageAct ha
      exact hlasts ref runId now stale rfl hid
  obtain ⟨row', hrow', hsame⟩ := message_of_lease hlease
  refine ⟨row', hrow', congrArg Lease.attemptCount hsame, fun hdead => ?_⟩
  exact (congrArg Lease.status hsame).symm.trans hdead

/-- A fenced step from a state of a fenced run respects everything. -/
theorem sound_step (hs : Inv s) (hfenced : Fenced s e) : Sound s e := by
  have hsane := sane_step e hs.saneRuns hs.saneMessages
  constructor
  · intro row hrow hdone
    obtain ⟨a, hstep, ha⟩ := messageLedger_step hs hfenced
    have hlease : (messageLedger s).lease row.gmailMessageId = some row.toLease := by
      simp only [messageLedger, messageLeases, Table.find?_of_mem hrow, Option.map_some]
    have hkept := Ledger.lease_after_of_done hs.orderlyMessages ha hlease hdone
    rw [← hstep] at hkept
    obtain ⟨row', hrow', hsame⟩ := message_of_lease hkept
    exact ⟨row', hrow', congrArg Lease.status hsame⟩
  · rintro i env worker history id rfl hpending row hrow
    have hrequest := hfenced i env rfl worker history _ hpending
    have hallowed := (Follows.allowed hs.follows hpending).1
    have hheld : HoldsKey (heldMessage ((history? s i).getD [])) id := by
      rw [history?_of_pending hpending]
      exact hallowed
    have hholds := holdsMessage_of_not_overtaken hs.saneMessages hheld hrequest
    have hlease : (messageLedger s).lease id = some row.toLease := by
      simp only [messageLedger, messageLeases, hrow, Option.map_some]
    exact Ledger.not_done_of_holds hs.orderlyMessages hholds hlease
  · intro row hrow hdone
    obtain ⟨a, hstep, ha⟩ := runLedger_step hs hfenced
    have hlease : (runLedger s).lease row.runId = some row.toLease := by
      simp only [runLedger, runLeases, Table.find?_of_mem hrow, Option.map_some]
    have hkept := Ledger.lease_after_of_done hs.orderlyRuns ha hlease hdone
    rw [← hstep] at hkept
    obtain ⟨row', hrow', hsame⟩ := run_of_lease hkept
    exact ⟨row', hrow', congrArg Lease.status hsame⟩
  · intro row hrow
    refine hsane.1.bounded row.runId row.toLease ?_
    simp only [runLedger, runLeases, Table.find?_of_mem hrow, Option.map_some]
  · intro row hrow
    refine hsane.2.bounded row.gmailMessageId row.toLease ?_
    simp only [messageLedger, messageLeases, Table.find?_of_mem hrow, Option.map_some]
  · rintro i env worker history op rfl hpending row hrow v since hne hholds hlasts
    exact sparesRun_of_holds hs hfenced hpending hrow hne hholds hlasts
  · rintro i env worker history op rfl hpending row hrow v since hne hholds hlasts
    exact sparesMessage_of_holds hs hfenced hpending hrow hne hholds hlasts

end Safety

section Samples

def eastern : Zone where
  name := text "America/New_York"
  date _ := text "2026-08-16"
  hour _ := 8

def inboxConfig : Config where
  zone := eastern
  startHour := 8
  endHour := 20
  maxMessagesPerRun := 100
  lookbackDays := 30
  allowedSenderEmails := [text "personal.sender@example.com"]
  activationEpoch := 0
  eventLog := false

/-- The instant of so many minutes into a day. -/
def minute (n : Fin 1440) : Instant :=
  ⟨63871200000000000 + n.val * 60000000, minutes_lt_maxMicros n⟩

/-- A step that goes well. -/
def calm (freshId : Str) : Env where
  raises := none
  freshId := freshId
  session := ⟨text "house"⟩
  candidates := [⟨text "gmail-1", none⟩]
  outcome := ⟨some "ok", []⟩

def stormy : Env := { calm (text "run-1") with raises := some (.runtimeError "timeout") }

/-- A call stalls on its message, a second call claims the slot and the message after the lease
and completes the message, and then the first call meets an exception. -/
def lateException : List Event :=
  [.start ⟨inboxConfig, minute 720⟩] ++ List.replicate 4 (.step 0 (calm (text "run-1"))) ++
    [.start ⟨inboxConfig, minute 740⟩] ++ List.replicate 6 (.step 1 (calm (text "run-2"))) ++
    [.step 0 stormy, .step 0 (calm (text "run-1"))]

/-- The first call records its failure. -/
def lateFailure : List Event := lateException ++ [.step 0 (calm (text "run-1"))]

/-- The time at which an event starts a call. -/
def startedAt : Event → Option Instant
  | .start call => some call.now
  | .step _ _ => none
  | .outside o => o.elim

end Samples

section Claim

end Claim

end HardyAI.CalendarInbox
