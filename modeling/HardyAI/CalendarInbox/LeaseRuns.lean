import HardyAI.CalendarInbox.Claims

/-! Every interleaving of calls of `run_due`, as two ledgers of leases. -/

open Foundation Foundation.Json Foundation.Program Foundation.Machine Foundation.Trace

namespace HardyAI.CalendarInbox

section Ledgers

def runLeases (db : InboxDb) (k : Str) : Option (Lease RunDone Str) :=
  (db.runs.find? k).map RunRow.toLease

def messageLeases (db : InboxDb) (k : Str) : Option (Lease MessageDone Str) :=
  (db.messages.find? k).map MessageRow.toLease

/-- What a request means for the lease of a run. -/
def runAct (i : Nat) : (op : Op) → op.Reply → Option (LeaseAct Str RunDone Str)
  | .claimRun _ now stale, .ok claim => some (.claim i claim.runId now stale)
  | .finishRun runId _ now, .ok () => some (.release i runId (.done .completed) now)
  | .markRunFailed runId status _ now, .ok () => some (.release i runId status now)
  | _, _ => none

/-- What a request means for the lease of a message. -/
def messageAct (i : Nat) : (op : Op) → op.Reply → Option (LeaseAct Str MessageDone Str)
  | .claimMessage ref _ now stale, .ok _ => some (.claim i ref.messageId now stale)
  | .reconcileMessage id, _ => some (.use i id)
  | .finishMessage id _ ignored now, .ok () =>
    some (.release i id (.done (if ignored then .ignored else .completed)) now)
  | .markMessageFailed id status _ now, .ok () => some (.release i id status now)
  | _, _ => none

theorem worker_runAct {i : Nat} {op : Op} {r : op.Reply} {a : LeaseAct Str RunDone Str}
    (ha : runAct i op r = some a) : a.worker = i := by
  cases op <;> cases r <;> cases ha <;> rfl

theorem worker_messageAct {i : Nat} {op : Op} {r : op.Reply} {a : LeaseAct Str MessageDone Str}
    (ha : messageAct i op r = some a) : a.worker = i := by
  cases op <;> cases r <;> cases ha <;> rfl

theorem map_find?_update {Row Key β : Type} [DecidableEq Key] {key : Row → Key} (t : Table key)
    {a : Table.Assignment key} {p : Row → β} {f : β → β} (ha : ∀ r, p (a.apply r) = f (p r))
    (k k' : Key) :
    ((t.update (fun r => key r = k) a).find? k').map p =
      ((t.find? k').map p).map fun x => if k' = k then f x else x := by
  rw [Table.find?_update, Option.map_map, Option.map_map]
  refine Option.map_congr fun r hr => ?_
  rw [Function.comp_apply, Function.comp_apply, Table.key_of_find? hr]
  by_cases hk : k' = k <;> simp [hk, ha]

variable {db db' : InboxDb} {freshId slot now stale : Str} {limit : Int} {i : Nat}
  {holding : Nat → Option (Holding Str Str)}

theorem runLeases_update {runId : Str} {l : Lease RunDone Str} {a : Table.Assignment RunRow.runId}
    {f : Lease RunDone Str → Lease RunDone Str} (hlease : runLeases db runId = some l)
    (ha : ∀ r : RunRow, (a.apply r).toLease = f r.toLease) :
    runLeases (db.updateRun runId a) = Function.update (runLeases db) runId (some (f l)) := by
  funext k
  rw [Ledger.update_eq_map (L := ⟨runLeases db, fun _ => none⟩) hlease]
  exact map_find?_update db.runs ha runId k

theorem messageLeases_update {id : Str} {l : Lease MessageDone Str}
    {a : Table.Assignment MessageRow.gmailMessageId}
    {f : Lease MessageDone Str → Lease MessageDone Str} (hlease : messageLeases db id = some l)
    (ha : ∀ r : MessageRow, (a.apply r).toLease = f r.toLease) :
    messageLeases (db.updateMessage id a) =
      Function.update (messageLeases db) id (some (f l)) := by
  funext k
  rw [Ledger.update_eq_map (L := ⟨messageLeases db, fun _ => none⟩) hlease]
  exact map_find?_update db.messages ha id k

/-- The claim that a call holds after the answer to `claim_run`. -/
def RunClaim.holds (claim : RunClaim) (now : Str) (held : Option (Holding Str Str)) :
    Option (Holding Str Str) :=
  match claim with
  | .granted runId attempt => some ⟨runId, attempt, now⟩
  | .refused _ _ => held

/-- The claim that a call holds after the answer to `claim_message`. -/
def MessageClaim.holds (claim : MessageClaim) (id now : Str) (held : Option (Holding Str Str)) :
    Option (Holding Str Str) :=
  match claim with
  | .granted attempt => some ⟨id, attempt, now⟩
  | .refused _ => held

theorem claimRun_acts (i : Nat) (holding : Nat → Option (Holding Str Str)) {claim : RunClaim}
    (hclaim : claimRun freshId slot now stale limit db = .ok (claim, db')) :
    (⟨runLeases db', Function.update holding i (claim.holds now (holding i))⟩ :
      Ledger Str RunDone Str) =
      Ledger.act (max 1 limit) ⟨runLeases db, holding⟩ (.claim i claim.runId now stale) := by
  unfold claimRun at hclaim
  split at hclaim
  · dsimp only at hclaim
    split at hclaim
    · cases hclaim
    · next runs hinsert =>
      cases hclaim
      have hnone : runLeases db freshId = none := by
        rw [runLeases, (Table.insert?_eq_some hinsert).1]
        rfl
      simp only [RunClaim.runId, Ledger.act, hnone]
      refine Ledger.ext (funext fun k => ?_) rfl
      rw [Ledger.lease_grant]
      simp only [runLeases, Table.find?_insert? hinsert]
      by_cases hk : k = freshId
      · simp [hk]
      · simp [hk, Ne.symm hk]
  · next row hrow =>
    have hmem : row ∈ db.runs.rows := List.mem_of_find?_eq_some hrow
    have hlease : runLeases db row.runId = some row.toLease := by
      rw [runLeases, Table.find?_of_mem hmem, Option.map_some]
    split at hclaim
    · next hverdict =>
      cases hclaim
      simp only [RunClaim.runId, RunClaim.holds, Ledger.act, hlease, hverdict,
        Function.update_eq_self]
    · next hverdict =>
      cases hclaim
      simp only [RunClaim.runId, RunClaim.holds, Ledger.act, hlease, hverdict,
        Function.update_eq_self]
      rw [runLeases_update (f := Lease.exhaust now) hlease fun _ => rfl]
    · next hverdict =>
      cases hclaim
      simp only [RunClaim.runId, RunClaim.holds, Ledger.act, hlease, hverdict,
        Function.update_eq_self]
    · next hverdict =>
      cases hclaim
      simp only [RunClaim.runId, RunClaim.holds, Ledger.act, hlease, hverdict]
      rw [runLeases_update (f := Lease.retake now) hlease fun _ => rfl]
      rfl

theorem claimMessage_acts (i : Nat) (holding : Nat → Option (Holding Str Str))
    {ref : InboxMessageRef} {runId : Str} {claim : MessageClaim}
    (hclaim : claimMessage ref runId now stale limit db = .ok (claim, db')) :
    (⟨messageLeases db', Function.update holding i (claim.holds ref.messageId now (holding i))⟩ :
      Ledger Str MessageDone Str) =
      Ledger.act (max 1 limit) ⟨messageLeases db, holding⟩
        (.claim i ref.messageId now stale) := by
  unfold claimMessage at hclaim
  split at hclaim
  · next hnone =>
    dsimp only at hclaim
    split at hclaim
    · cases hclaim
    · next messages hinsert =>
      cases hclaim
      have hlease : messageLeases db ref.messageId = none := by
        rw [messageLeases, hnone, Option.map_none]
      simp only [Ledger.act, hlease]
      refine Ledger.ext (funext fun k => ?_) rfl
      rw [Ledger.lease_grant]
      simp only [messageLeases, Table.find?_insert? hinsert]
      by_cases hk : k = ref.messageId
      · simp [hk]
      · simp [hk, Ne.symm hk]
  · next row hrow =>
    have hlease : messageLeases db ref.messageId = some row.toLease := by
      rw [messageLeases, hrow, Option.map_some]
    split at hclaim
    · next hverdict =>
      cases hclaim
      simp only [MessageClaim.holds, Ledger.act, hlease, hverdict, Function.update_eq_self]
    · next hverdict =>
      cases hclaim
      simp only [MessageClaim.holds, Ledger.act, hlease, hverdict, Function.update_eq_self]
      rw [messageLeases_update (f := Lease.exhaust now) hlease fun _ => rfl]
    · next hverdict =>
      cases hclaim
      simp only [MessageClaim.holds, Ledger.act, hlease, hverdict, Function.update_eq_self]
    · next hverdict =>
      cases hclaim
      simp only [MessageClaim.holds, Ledger.act, hlease, hverdict]
      rw [messageLeases_update (f := Lease.retake now) hlease fun _ => rfl]
      rfl

theorem runs_claimMessage {ref : InboxMessageRef} {runId : Str} {claim : MessageClaim}
    (hclaim : claimMessage ref runId now stale limit db = .ok (claim, db')) :
    runLeases db' = runLeases db := by
  unfold claimMessage at hclaim
  dsimp only at hclaim
  split at hclaim <;> split at hclaim <;> cases hclaim <;> rfl

theorem messages_claimRun {claim : RunClaim}
    (hclaim : claimRun freshId slot now stale limit db = .ok (claim, db')) :
    messageLeases db' = messageLeases db := by
  unfold claimRun at hclaim
  dsimp only at hclaim
  split at hclaim <;> split at hclaim <;> cases hclaim <;> rfl

theorem runLeases_recordEvent {e : EventRow} : runLeases (recordEvent e db) = runLeases db := by
  unfold recordEvent
  split <;> rfl

theorem messageLeases_recordEvent {e : EventRow} :
    messageLeases (recordEvent e db) = messageLeases db := by
  unfold recordEvent
  split <;> rfl

theorem runLeases_release {runId : Str} {status : LeaseStatus RunDone}
    {a : Table.Assignment RunRow.runId}
    (ha : ∀ r : RunRow, (a.apply r).toLease = r.toLease.setStatus status now) :
    (⟨runLeases (db.updateRun runId a), Function.update holding i none⟩ : Ledger Str RunDone Str) =
      Ledger.release ⟨runLeases db, holding⟩ i runId status now := by
  refine Ledger.ext (funext fun k => ?_) rfl
  rw [Ledger.lease_release]
  exact map_find?_update db.runs ha runId k

theorem messageLeases_release {id : Str} {status : LeaseStatus MessageDone}
    {a : Table.Assignment MessageRow.gmailMessageId}
    (ha : ∀ r : MessageRow, (a.apply r).toLease = r.toLease.setStatus status now) :
    (⟨messageLeases (db.updateMessage id a), Function.update holding i none⟩ :
      Ledger Str MessageDone Str) =
      Ledger.release ⟨messageLeases db, holding⟩ i id status now := by
  refine Ledger.ext (funext fun k => ?_) rfl
  rw [Ledger.lease_release]
  exact map_find?_update db.messages ha id k

end Ledgers

section Simulation

variable [PythonText] {s : System} {i worker : Nat} {env : Env} {history : History Op.Reply}
  {op : Op}

def runLedger (s : System) : Ledger Str RunDone Str where
  lease := runLeases s.state
  holding v := heldRun ((history? s v).getD [])

def messageLedger (s : System) : Ledger Str MessageDone Str where
  lease := messageLeases s.state
  holding v := heldMessage ((history? s v).getD [])

theorem holding_serve (track : Option (Holding Str Str) → Sigma Op.Reply → Option (Holding Str Str))
    (hpending : pending? s i = some (worker, history, op)) :
    (fun v => ((history? (inboxMachine.serve s i env) v).getD []).foldl track none) =
      Function.update (fun v => ((history? s v).getD []).foldl track none) i
        (track (((history? s i).getD []).foldl track none) ⟨op, (exec env op s.state).1⟩) := by
  funext v
  rw [history?_serve (fun _ => rfl) hpending]
  by_cases hv : v = i
  · subst hv
    rw [if_pos rfl, Function.update_self, history?_of_pending hpending, Option.getD_some,
      Option.getD_some, List.foldl_append]
    rfl
  · rw [if_neg hv, Function.update_of_ne hv]

omit [PythonText] in
theorem respond_cases {α : Type} (env : Env) (a : α) (db db' : InboxDb) :
    (∃ e, respond env a db db' = (.error e, db)) ∨ respond env a db db' = (.ok a, db') := by
  unfold respond
  cases env.raises with
  | none => exact .inr rfl
  | some e => exact .inl ⟨e, rfl⟩

omit [PythonText] in
theorem respondTo_cases {α : Type} (env : Env) (t : Transaction InboxDb α) (db : InboxDb) :
    (∃ e, respondTo env t db = (.error e, db)) ∨
      ∃ a db', t db = .ok (a, db') ∧ respondTo env t db = (.ok a, db') := by
  unfold respondTo
  cases env.raises with
  | some e => exact .inl ⟨e, rfl⟩
  | none =>
    rcases ht : t db with e | ⟨a, db'⟩
    · exact .inl ⟨e, by simp [Transaction.reply, Transaction.commit, ht, Except.map]⟩
    · exact .inr ⟨a, db', rfl, by simp [Transaction.reply, Transaction.commit, ht, Except.map]⟩

/-- Each request is one act on the ledger of the runs, or none. -/
theorem runLedger_serve (hpending : pending? s i = some (worker, history, op)) :
    runLedger (inboxMachine.serve s i env) =
      (runLedger s).after maxRunAttempts (runAct i op (exec env op s.state).1) := by
  have hsplit : runLedger (inboxMachine.serve s i env) = ⟨runLeases (exec env op s.state).2,
      Function.update (runLedger s).holding i
        (trackRun ((runLedger s).holding i) ⟨op, (exec env op s.state).1⟩)⟩ :=
    Ledger.ext (congrArg runLeases (serve_of_pending hpending).1) (holding_serve trackRun hpending)
  have hidle : ∀ db, runLeases db = runLeases s.state →
      (⟨runLeases db, Function.update (runLedger s).holding i ((runLedger s).holding i)⟩ :
        Ledger Str RunDone Str) = runLedger s := by
    intro db hleases
    rw [hleases, Function.update_eq_self]
    rfl
  rw [hsplit]
  cases op with
  | claimRun slot now stale =>
    rcases respondTo_cases env (claimRun env.freshId slot now stale maxRunAttempts) s.state with
      ⟨e, hexec⟩ | ⟨claim, db', hclaim, hexec⟩
    · rw [exec, hexec]
      exact hidle _ rfl
    · rw [exec, hexec]
      have hacts := claimRun_acts i (runLedger s).holding hclaim
      cases claim <;> exact hacts
  | finishRun runId result now =>
    rcases respond_cases env () s.state (finishRun runId result now s.state) with
      ⟨e, hexec⟩ | hexec
    · rw [exec, hexec]
      exact hidle _ rfl
    · rw [exec, hexec]
      exact runLeases_release fun _ => rfl
  | markRunFailed runId status error now =>
    rcases respond_cases env () s.state (markRunFailed runId status error now s.state) with
      ⟨e, hexec⟩ | hexec
    · rw [exec, hexec]
      exact hidle _ rfl
    · rw [exec, hexec]
      exact runLeases_release fun _ => rfl
  | claimMessage ref runId now stale =>
    rcases respondTo_cases env (claimMessage ref runId now stale maxMessageAttempts) s.state with
      ⟨e, hexec⟩ | ⟨claim, db', hclaim, hexec⟩
    · rw [exec, hexec]
      exact hidle _ rfl
    · rw [exec, hexec]
      exact hidle _ (runs_claimMessage hclaim)
  | recordEvent e =>
    rcases respond_cases env () s.state (recordEvent e s.state) with ⟨e', hexec⟩ | hexec
    · rw [exec, hexec]
      exact hidle _ rfl
    · rw [exec, hexec]
      exact hidle _ runLeases_recordEvent
  | finishMessage id outcome ignored now =>
    rcases respond_cases env () s.state (finishMessage id outcome ignored now s.state) with
      ⟨e, hexec⟩ | hexec <;> rw [exec, hexec] <;> exact hidle _ rfl
  | markMessageFailed id status error now =>
    rcases respond_cases env () s.state (markMessageFailed id status error now s.state) with
      ⟨e, hexec⟩ | hexec <;> rw [exec, hexec] <;> exact hidle _ rfl
  | runAttempts runId =>
    rcases respond_cases env (runAttempts runId s.state) s.state s.state with
      ⟨e, hexec⟩ | hexec <;> rw [exec, hexec] <;> exact hidle _ rfl
  | messageAttempts id =>
    rcases respond_cases env (messageAttempts id s.state) s.state s.state with
      ⟨e, hexec⟩ | hexec <;> rw [exec, hexec] <;> exact hidle _ rfl
  | openSession r =>
    rcases respond_cases env env.session s.state s.state with
      ⟨e, hexec⟩ | hexec <;> rw [exec, hexec] <;> exact hidle _ rfl
  | listCandidateMessages =>
    rcases respond_cases env env.candidates s.state s.state with
      ⟨e, hexec⟩ | hexec <;> rw [exec, hexec] <;> exact hidle _ rfl
  | reconcileMessage id =>
    rcases respond_cases env env.outcome s.state s.state with
      ⟨e, hexec⟩ | hexec <;> rw [exec, hexec] <;> exact hidle _ rfl
  | record event =>
    rcases respond_cases env () s.state s.state with
      ⟨e, hexec⟩ | hexec <;> rw [exec, hexec] <;> exact hidle _ rfl

/-- Each request is one act on the ledger of the messages, or none. -/
theorem messageLedger_serve (hpending : pending? s i = some (worker, history, op)) :
    messageLedger (inboxMachine.serve s i env) =
      (messageLedger s).after maxMessageAttempts (messageAct i op (exec env op s.state).1) := by
  have hsplit : messageLedger (inboxMachine.serve s i env) =
      ⟨messageLeases (exec env op s.state).2, Function.update (messageLedger s).holding i
        (trackMessage ((messageLedger s).holding i) ⟨op, (exec env op s.state).1⟩)⟩ :=
    Ledger.ext (congrArg messageLeases (serve_of_pending hpending).1)
      (holding_serve trackMessage hpending)
  have hidle : ∀ db, messageLeases db = messageLeases s.state →
      (⟨messageLeases db, Function.update (messageLedger s).holding i ((messageLedger s).holding i)⟩ :
        Ledger Str MessageDone Str) = messageLedger s := by
    intro db hleases
    rw [hleases, Function.update_eq_self]
    rfl
  rw [hsplit]
  cases op with
  | claimMessage ref runId now stale =>
    rcases respondTo_cases env (claimMessage ref runId now stale maxMessageAttempts) s.state with
      ⟨e, hexec⟩ | ⟨claim, db', hclaim, hexec⟩
    · rw [exec, hexec]
      exact hidle _ rfl
    · rw [exec, hexec]
      have hacts := claimMessage_acts i (messageLedger s).holding hclaim
      cases claim <;> exact hacts
  | finishMessage id outcome ignored now =>
    rcases respond_cases env () s.state (finishMessage id outcome ignored now s.state) with
      ⟨e, hexec⟩ | hexec
    · rw [exec, hexec]
      exact hidle _ rfl
    · rw [exec, hexec]
      exact messageLeases_release fun _ => rfl
  | markMessageFailed id status error now =>
    rcases respond_cases env () s.state (markMessageFailed id status error now s.state) with
      ⟨e, hexec⟩ | hexec
    · rw [exec, hexec]
      exact hidle _ rfl
    · rw [exec, hexec]
      exact messageLeases_release fun _ => rfl
  | claimRun slot now stale =>
    rcases respondTo_cases env (claimRun env.freshId slot now stale maxRunAttempts) s.state with
      ⟨e, hexec⟩ | ⟨claim, db', hclaim, hexec⟩
    · rw [exec, hexec]
      exact hidle _ rfl
    · rw [exec, hexec]
      exact hidle _ (messages_claimRun hclaim)
  | recordEvent e =>
    rcases respond_cases env () s.state (recordEvent e s.state) with ⟨e', hexec⟩ | hexec
    · rw [exec, hexec]
      exact hidle _ rfl
    · rw [exec, hexec]
      exact hidle _ messageLeases_recordEvent
  | finishRun runId result now =>
    rcases respond_cases env () s.state (finishRun runId result now s.state) with
      ⟨e, hexec⟩ | hexec <;> rw [exec, hexec] <;> exact hidle _ rfl
  | markRunFailed runId status error now =>
    rcases respond_cases env () s.state (markRunFailed runId status error now s.state) with
      ⟨e, hexec⟩ | hexec <;> rw [exec, hexec] <;> exact hidle _ rfl
  | runAttempts runId =>
    rcases respond_cases env (runAttempts runId s.state) s.state s.state with
      ⟨e, hexec⟩ | hexec <;> rw [exec, hexec] <;> exact hidle _ rfl
  | messageAttempts id =>
    rcases respond_cases env (messageAttempts id s.state) s.state s.state with
      ⟨e, hexec⟩ | hexec <;> rw [exec, hexec] <;> exact hidle _ rfl
  | openSession r =>
    rcases respond_cases env env.session s.state s.state with
      ⟨e, hexec⟩ | hexec <;> rw [exec, hexec] <;> exact hidle _ rfl
  | listCandidateMessages =>
    rcases respond_cases env env.candidates s.state s.state with
      ⟨e, hexec⟩ | hexec <;> rw [exec, hexec] <;> exact hidle _ rfl
  | reconcileMessage id =>
    rcases respond_cases env env.outcome s.state s.state with
      ⟨e, hexec⟩ | hexec <;> rw [exec, hexec] <;> exact hidle _ rfl
  | record event =>
    rcases respond_cases env () s.state s.state with
      ⟨e, hexec⟩ | hexec <;> rw [exec, hexec] <;> exact hidle _ rfl

end Simulation

end HardyAI.CalendarInbox
