import HardyAI.Tasks.WorkerFence

/-! The receipts of capability effects while calls and reconciliations of any number of workers
overlap: the check of a receipt and the write of its outcome are two transactions. -/

open Foundation Foundation.Json Foundation.Machine Foundation.Program Foundation.Trace
open HardyAI.Jobs HardyAI.Reviews HardyAI.Skills

namespace HardyAI.Tasks

section Table

variable {db db' : TaskDb} {taskId : Str} {now : Instant}

/-- Receipts are only added, each as a reservation. -/
def Reserves (db db' : TaskDb) : Prop :=
  ∀ k id, db'.effect? k id = db.effect? k id ∨
    db.effect? k id = none ∧ ∃ row, db'.effect? k id = some row ∧ row.state = .reserved

theorem reserves_of_eq (h : db'.effects = db.effects) : Reserves db db' := by
  intro k id
  rw [TaskDb.effect?, TaskDb.effect?, h]
  exact .inl rfl

theorem reserves_commit {α : Type} {T : Transaction TaskDb α}
    (h : ∀ a db', T db = .ok (a, db') → db'.effects = db.effects) : Reserves db (T.commit db) := by
  cases hT : T db with
  | error e =>
    rw [Transaction.commit_of_error hT]
    exact reserves_of_eq rfl
  | ok reply =>
    rw [Transaction.commit_of_ok hT]
    exact reserves_of_eq (h _ _ hT)

theorem createTask_reserves (request : TaskRequest) :
    Reserves db ((createTask request taskId now).commit db) := by
  refine reserves_commit fun reply db' h => ?_
  simp only [createTask, bind_eq_ok] at h
  obtain ⟨-, -, h⟩ := h
  split at h
  · simp only [bind_eq_ok, Except.ok.injEq, Prod.mk.injEq] at h
    obtain ⟨-, -, -, rfl⟩ := h
    rfl
  · split at h
    · simp at h
    · simp only [Except.ok.injEq, Prod.mk.injEq] at h
      obtain ⟨-, rfl⟩ := h
      rfl

theorem addUserMessage_reserves {ownerId submissionId content : Str} {expected : Int} :
    Reserves db ((addUserMessage taskId ownerId expected submissionId content now).commit db) := by
  refine reserves_commit fun reply db' h => ?_
  simp only [addUserMessage, bind_eq_ok] at h
  obtain ⟨-, -, old, -, h⟩ := h
  split at h
  · simp only [Except.ok.injEq, Prod.mk.injEq] at h
    obtain ⟨-, rfl⟩ := h
    rfl
  · simp only [bind_eq_ok, Except.ok.injEq, Prod.mk.injEq] at h
    obtain ⟨-, -, -, -, -, -, -, rfl⟩ := h
    rfl

theorem ownerTransition_reserves {ownerId : Str} {expected : Int} {status : TaskStatus} :
    Reserves db ((ownerTransition taskId ownerId expected status now).commit db) := by
  refine reserves_commit fun reply db' h => ?_
  simp only [ownerTransition, bind_eq_ok] at h
  obtain ⟨old, -, -, -, h⟩ := h
  split at h
  · simp only [Except.ok.injEq, Prod.mk.injEq] at h
    rw [← h.2]
  · simp only [bind_eq_ok, Except.ok.injEq, Prod.mk.injEq] at h
    obtain ⟨-, -, -, rfl⟩ := h
    rfl

theorem continueTask_reserves {ownerId submissionId : Str} {expected seconds decisions calls : Int} :
    Reserves db ((continueTask taskId ownerId expected submissionId seconds decisions calls
      now).commit db) := by
  refine reserves_commit fun reply db' h => ?_
  simp only [continueTask, bind_eq_ok] at h
  obtain ⟨old, -, h⟩ := h
  split at h
  · simp only [Except.ok.injEq, Prod.mk.injEq] at h
    obtain ⟨-, rfl⟩ := h
    rfl
  · simp only [bind_eq_ok, Except.ok.injEq, Prod.mk.injEq] at h
    obtain ⟨-, -, -, -, -, -, -, -, -, rfl⟩ := h
    rfl

theorem owner_reserves (c : OwnerCommand) : Reserves db ((c.run now).commit db) := by
  cases c with
  | addUserMessage taskId ownerId expected submissionId content =>
    rw [OwnerCommand.run, Transaction.commit_mapReply]
    exact addUserMessage_reserves
  | pause taskId ownerId expected =>
    rw [OwnerCommand.run, Transaction.commit_mapReply]
    exact ownerTransition_reserves
  | cancel taskId ownerId expected =>
    rw [OwnerCommand.run, Transaction.commit_mapReply]
    exact ownerTransition_reserves
  | continueTask taskId ownerId expected submissionId seconds decisions calls =>
    rw [OwnerCommand.run, Transaction.commit_mapReply]
    exact continueTask_reserves

/-- A reservation shows the receipt as it is, or adds a reserved one. -/
theorem reserveEffect_spec {a : EffectReservation} {receiptId : Str} {row : EffectReceipt}
    {created : Bool} (h : reserveEffect a receiptId now db = .ok ((row, created), db')) :
    (db' = db ∧ db.effect? a.taskId a.logicalOperationId = some row) ∨
      db.effect? a.taskId a.logicalOperationId = none ∧ row = a.row receiptId (isoUtc now) ∧
      ∀ k id, db'.effect? k id =
        if a.taskId = k ∧ a.logicalOperationId = id then some row else db.effect? k id := by
  unfold reserveEffect at h
  split at h
  · next existing hexisting =>
    simp only [bind_eq_ok, Except.ok.injEq, Prod.mk.injEq] at h
    obtain ⟨-, -, ⟨rfl, -⟩, rfl⟩ := h
    exact .inl ⟨rfl, hexisting⟩
  · next hnone =>
    simp only [bind_eq_ok] at h
    obtain ⟨-, -, h⟩ := h
    split at h
    · simp at h
    · next effects hinsert =>
      simp only [Except.ok.injEq, Prod.mk.injEq] at h
      obtain ⟨⟨rfl, -⟩, rfl⟩ := h
      have hadded := (Table.insertApart?_eq_some.1 hinsert).2
      refine .inr ⟨hnone, rfl, fun k id => ?_⟩
      rw [TaskDb.effect?, Table.find?_insert? hadded]
      exact if_congr Prod.mk_inj rfl rfl

theorem reserveEffect_reserves {a : EffectReservation} {receiptId : Str} :
    Reserves db ((reserveEffect a receiptId now).commit db) := by
  refine Transaction.commit_of_forall (reserves_of_eq rfl) fun reply db' h => ?_
  obtain ⟨rfl, -⟩ | ⟨hnone, hrow, hafter⟩ := reserveEffect_spec h
  · exact reserves_of_eq rfl
  · intro k id
    rw [hafter]
    by_cases hsame : a.taskId = k ∧ a.logicalOperationId = id
    · obtain ⟨rfl, rfl⟩ := hsame
      exact .inr ⟨hnone, _, by rw [if_pos ⟨rfl, rfl⟩], by rw [hrow]; rfl⟩
    · exact .inl (if_neg hsame)

end Table

section Requests

variable [PythonText] {env : Env} {op : Op} {s : Store}

/-- Whatever happens outside leaves the receipts alone. -/
theorem act_reserves (o : Outside) : Reserves s.tasks (act o s).2.tasks := by
  cases o with
  | owner c now => exact owner_reserves c
  | createTask request taskId now => exact createTask_reserves request
  | setActiveJob taskId jobId generation now => exact reserves_of_eq rfl
  | advanceQueuedGeneration taskId generation now =>
    refine reserves_commit fun reply db' h => ?_
    simp only [advanceQueuedGeneration, bind_eq_ok, Except.ok.injEq, Prod.mk.injEq] at h
    obtain ⟨-, -, -, -, -, rfl⟩ := h
    rfl
  | setWorkspaceRef taskId workspaceRef now =>
    refine reserves_commit fun reply db' h => ?_
    simp only [setWorkspaceRef, bind_eq_ok, Except.ok.injEq, Prod.mk.injEq] at h
    obtain ⟨-, -, -, -, -, -, -, rfl⟩ := h
    rfl
  | reviews c => exact reserves_of_eq rfl

omit [PythonText] in
theorem onTasks_reserves {α : Type} {T : Transaction TaskDb α}
    (h : Reserves s.tasks (T.commit s.tasks)) : Reserves s.tasks (onTasks T s).2.tasks := h

omit [PythonText] in
theorem onReviews_reserves {α : Type} {T : Transaction ReviewDb α} :
    Reserves s.tasks (onReviews T s).2.tasks := reserves_of_eq rfl

omit [PythonText] in
theorem onJobs_reserves {α : Type} {T : Transaction JobLedger α} :
    Reserves s.tasks (onJobs T s).2.tasks := reserves_of_eq rfl

def Op.finishes : Op → Bool
  | .finishEffect .. => true
  | _ => false

/-- No request but a `finish_effect` changes a receipt. -/
theorem exec_reserves (hop : op.finishes = false) :
    Reserves s.tasks (exec env op s).2.tasks := by
  cases op with
  | finishEffect taskId logicalId state result => exact absurd hop Bool.noConfusion
  | beginRun taskId jobId generation => exact onTasks_reserves (reserves_of_eq rfl)
  | consumeUsage taskId expected seconds decisions calls =>
    refine onTasks_reserves (reserves_commit fun row db' h => ?_)
    obtain ⟨-, -, -, -, -, rfl⟩ := consumeUsage_spec h
    rfl
  | setPlan taskId plan summary expected =>
    refine onTasks_reserves (reserves_commit fun row db' h => ?_)
    obtain ⟨-, _, _, rfl⟩ := setPlan_spec h
    rfl
  | workerTransition taskId a expected =>
    refine onTasks_reserves (reserves_commit fun row db' h => ?_)
    obtain ⟨-, rfl⟩ := workerTransition_spec h
    rfl
  | appendMessage message =>
    refine onTasks_reserves (reserves_commit fun reply db' h => ?_)
    simp only [addMessage, bind_eq_ok, Except.ok.injEq, Prod.mk.injEq] at h
    obtain ⟨-, -, -, -, -, rfl⟩ := h
    rfl
  | reserveEffect a =>
    refine onTasks_reserves ?_
    rw [Transaction.commit_mapReply]
    exact reserveEffect_reserves
  | savePreference a =>
    refine onTasks_reserves (reserves_commit fun saved db' h => ?_)
    simp only [savePreference, bind_eq_ok, Except.ok.injEq, Prod.mk.injEq] at h
    obtain ⟨-, -, -, -, -, -, -, -, -, rfl⟩ := h
    rfl
  | saveSkillRevision a =>
    refine onTasks_reserves (reserves_commit fun saved db' h => ?_)
    simp only [saveSkillRevision, bind_eq_ok, Except.ok.injEq, Prod.mk.injEq] at h
    obtain ⟨-, -, -, -, -, -, -, rfl⟩ := h
    rfl
  | claimJobs workerId lease => exact onJobs_reserves
  | completeJob jobId workerId token => exact onJobs_reserves
  | acknowledgeCancel jobId workerId token => exact onJobs_reserves
  | retryJob jobId workerId errorCode delay token => exact onJobs_reserves
  | expireDue => exact onReviews_reserves
  | createActionProposal prepared => exact onReviews_reserves
  | _ => exact reserves_of_eq rfl

/-- A `finish_effect` that succeeds rewrites one receipt. -/
theorem finish_spec {k id : Str} {state : EffectState} {result : Fields}
    (h : (Op.finishEffect k id state result).tookEffect
      (exec env (.finishEffect k id state result) s).1 = true) :
    ∃ stored old, storedResult result = .ok stored ∧ s.tasks.effect? k id = some old ∧
      ∀ k' id', (exec env (.finishEffect k id state result) s).2.tasks.effect? k' id' =
        if k = k' ∧ id = id' then
          some ((recordEffect state stored (isoUtc env.now)).apply old)
        else s.tasks.effect? k' id' := by
  obtain ⟨row, hrow⟩ := isOk_reply h
  obtain ⟨stored, hstored, hsome, hdb⟩ := finishEffect_spec hrow
  obtain ⟨old, hold⟩ := Option.isSome_iff_exists.1 hsome
  have hafter : (exec env (.finishEffect k id state result) s).2.tasks =
      (finishEffect k id state result env.now).commit s.tasks := rfl
  refine ⟨stored, old, hstored, hold, fun k' id' => ?_⟩
  rw [hafter, hdb, TaskDb.effect?, Table.find?_updateKey]
  by_cases hsame : k = k' ∧ id = id'
  · obtain ⟨rfl, rfl⟩ := hsame
    have hfind : s.tasks.effects.find? (k, id) = some old := hold
    simp [hfind]
  · have hkeys : ¬ (k' = k ∧ id' = id) := fun heq => hsame ⟨heq.1.symm, heq.2.symm⟩
    simp [hsame, hkeys, TaskDb.effect?]

end Requests

section Machine

/-- What a thread runs. -/
inductive Caller
  | call (a : CallArgs)
  | reconcile (taskId : Str)

/-- What happens beside the calls: acts from outside, and any other request of a worker. -/
inductive Beside
  | outside (o : Outside)
  | request (op : Op) (env : Env)

variable [PythonText]

def Caller.program : Caller → Process Unit
  | .call a => do
    let _ ← Tasks.call a
    Pure.pure ()
  | .reconcile taskId => do
    let _ ← reconcileApprovalEffects taskId
    Pure.pure ()

def Beside.run : Beside → Store → Store
  | .outside o, s => (act o s).2
  | .request op env, s => if op.finishes then s else (exec env op s).2

theorem beside_reserves (o : Beside) {s : Store} : Reserves s.tasks (o.run s).tasks := by
  cases o with
  | outside o => exact act_reserves o
  | request op env =>
    cases hop : op.finishes with
    | true =>
      rw [Beside.run, hop]
      exact reserves_of_eq rfl
    | false =>
      rw [Beside.run, hop]
      exact exec_reserves hop

def callMachine : Machine Store Op Env Beside Unit Caller Empty Op.Reply where
  exec := exec
  outside o s := ((), o.run s)
  program := Caller.program
  spawns _ := none
  child := nofun

abbrev CallEvent := Machine.Event Env Beside Caller
abbrev CallEntry := Machine.Entry Beside Unit Op.Reply
abbrev CallSystem := Machine.System Store Beside Unit Op.Reply

def callsAfter (es : List CallEvent) : CallSystem :=
  run callMachine.step (Machine.start .empty) es

end Machine

section Discipline

/-- The receipt of the operation was seen in a state other than `committed`. -/
def Checks (k id : Str) : Sigma Op.Reply → Prop
  | ⟨.reserveEffect a, reply⟩ => a.taskId = k ∧ a.logicalOperationId = id ∧
      ∃ row, reply = .ok row ∧ row.state ≠ .committed
  | ⟨.listEffects _, reply⟩ => ∃ row ∈ reply, row.taskId = k ∧ row.logicalOperationId = id ∧
      row.state ≠ .committed
  | _ => False

/-- An outcome is recorded only after a check of its receipt. -/
def Checked (h : History Op.Reply) (op : Op) : Prop :=
  ∀ k id state result, op = .finishEffect k id state result → ∃ e ∈ h, Checks k id e

variable {h h' : History Op.Reply} {k id : Str}

theorem checked_of_not_finishes {op : Op} (hop : op.finishes = false) : Checked h op := by
  rintro k id state result rfl
  exact absurd hop Bool.noConfusion

theorem safe_other {op : Op} (hop : op.finishes = false) :
    Safe Checked h (ask op) := safe_perform (checked_of_not_finishes hop)

variable [PythonText]

omit [PythonText] in
theorem finishEffect_checked {state : EffectState} {result : Fields}
    (hcheck : ∃ e ∈ h, Checks k id e) : Checked h (.finishEffect k id state result) := by
  intro k' id' state' result' heq
  obtain ⟨rfl, rfl, -, -⟩ := Op.finishEffect.inj heq
  exact hcheck

omit [PythonText] in
theorem checks_mono (hcheck : ∃ e ∈ h, Checks k id e) (hpre : h <+: h') :
    ∃ e ∈ h', Checks k id e := by
  obtain ⟨e, he, hchecks⟩ := hcheck
  exact ⟨e, hpre.subset he, hchecks⟩

omit [PythonText] in
theorem finishCall_checked {a : CallArgs} {logicalId : Str} {state : EffectState} {result : Fields}
    (hcheck : ∃ e ∈ h, Checks a.task.taskId logicalId e) :
    Safe Checked h (finishCall a logicalId state result) :=
  (safe_perform (finishEffect_checked hcheck)).raising.bind fun _ _ _ => safe_pure

omit [PythonText] in
theorem getActionProposal_checked (proposalId : Str) :
    Safe Checked h (getActionProposal proposalId) :=
  (safe_other rfl).raising.bind fun _ _ _ => safe_other rfl

theorem approvalResult_checked (prepared : PreparedToolCall) (existing : EffectReceipt) :
    Safe Checked h (approvalResult prepared existing) := by
  unfold approvalResult
  split
  · refine safe_ofExcept.bind fun h₁ proposalId _ => ?_
    have hprior : Safe Checked h₁ (priorProposal proposalId) := by
      unfold priorProposal
      split
      · exact safe_pure
      · exact getActionProposal_checked proposalId
    exact hprior.bind fun _ _ _ => safe_pure
  · refine (safe_other rfl).bind fun h₁ reply _ => ?_
    cases reply <;> exact safe_pure

omit [PythonText] in
/-- A reservation shows the receipt. -/
theorem reserveEffect_conforms (a : EffectReservation) :
    Conforms Checked (fun h' x => ∀ row, x = .ok row → row.state ≠ .committed →
      ∃ e ∈ h', Checks a.taskId a.logicalOperationId e) h (.raising (ask (.reserveEffect a))) := by
  refine conforms_raising.2 (conforms_perform.2
    ⟨checked_of_not_finishes rfl, fun reply row heq hopen => ?_⟩)
  exact ⟨⟨.reserveEffect a, reply⟩, by simp, rfl, rfl, row, heq, hopen⟩

theorem callEffect_checked (a : CallArgs) (logicalId : Str) (prepared : PreparedToolCall) :
    Safe Checked h (callEffect a logicalId prepared) := by
  refine (reserveEffect_conforms _).bind (fun h₁ existing _ hseen => ?_) fun _ _ _ _ => trivial
  split
  · exact safe_pure
  · next hopen =>
    have hcheck : ∃ e ∈ h₁, Checks a.task.taskId logicalId e :=
      hseen existing rfl fun hcommitted => hopen (.inl hcommitted)
    split
    · exact (approvalResult_checked prepared existing).bind fun h₂ approval hp₂ =>
        finishCall_checked (checks_mono hcheck hp₂)
    · exact (safe_other rfl).raising.bind fun h₂ result hp₂ => safe_ofExcept.bind fun h₃ state hp₃ =>
        finishCall_checked (checks_mono hcheck (hp₂.trans hp₃))

omit [PythonText] in
theorem conflict?_checked {α : Type} {p : Process α} (hp : Safe Checked h p) :
    Safe Checked h (conflict? p) := by
  refine (hp.bind fun _ _ _ => safe_pure).handle fun h' e _ => ?_
  cases e <;> exact trivial

/-- A call records an outcome only after its reservation has shown an open receipt. -/
theorem call_checked (a : CallArgs) : Safe Checked h (call a) := by
  refine Safe.ite safe_pure ?_
  refine (safe_other rfl).raising.bind fun h₁ prepared _ => ?_
  cases prepared with
  | inl refusal => exact safe_pure
  | inr prepared =>
    change Safe Checked h₁ (preparedCall a _ prepared)
    refine Safe.ite safe_pure (Safe.ite safe_pure ?_)
    refine (conflict?_checked (safe_other rfl).raising).bind fun h₂ charged _ => ?_
    cases charged with
    | error code => exact safe_pure
    | ok row => exact Safe.ite (callEffect_checked ..) (safe_other rfl).raising

theorem reconcileEffect_checked (effect : EffectReceipt)
    (hcheck : ∃ e ∈ h, Checks effect.taskId effect.logicalOperationId e) :
    Safe Checked h (reconcileEffect effect) := by
  refine safe_ofExcept.bind fun h₁ proposalId hp₁ => ?_
  split
  · exact safe_pure
  · refine (getActionProposal_checked proposalId).bind fun h₂ proposal hp₂ => ?_
    cases projection proposal with
    | none => exact safe_pure
    | some outcome =>
      have hop : Checked h₂ (.finishEffect effect.taskId effect.logicalOperationId
          outcome.1 outcome.2) := finishEffect_checked (checks_mono hcheck (hp₁.trans hp₂))
      exact (safe_perform hop).raising.bind fun _ _ _ => safe_pure

theorem reconcileEffects_checked (effects : List EffectReceipt)
    (hcheck : ∀ effect ∈ effects, effect.state = .waitingApproval →
      ∃ e ∈ h, Checks effect.taskId effect.logicalOperationId e) :
    Safe Checked h (reconcileEffects effects) := by
  induction effects generalizing h with
  | nil => exact safe_pure
  | cons effect effects ih =>
    have hfirst : Safe Checked h (reconcileWaiting effect) := by
      unfold reconcileWaiting
      split
      · next hwaiting => exact reconcileEffect_checked effect (hcheck effect (by simp) hwaiting)
      · exact safe_pure
    refine hfirst.bind fun h₁ one hp₁ => Safe.bind (ih fun later hlater hwaiting => ?_)
      fun _ _ _ => safe_pure
    exact checks_mono (hcheck later (by simp [hlater]) hwaiting) hp₁

omit [PythonText] in
theorem listEffects_conforms (taskId : Str) :
    Conforms Checked (fun h' x => ∀ effects, x = .ok effects →
      (⟨.listEffects taskId, effects⟩ : Sigma Op.Reply) ∈ h') h (ask (.listEffects taskId)) := by
  refine conforms_perform.2 ⟨checked_of_not_finishes rfl, fun reply effects heq => ?_⟩
  obtain rfl := Except.ok.inj heq
  simp

/-- A reconciliation records the outcome of receipts that it has seen waiting. -/
theorem reconcileApprovalEffects_checked (taskId : Str) :
    Safe Checked h (reconcileApprovalEffects taskId) := by
  refine (listEffects_conforms taskId).bind (fun h₁ effects _ hlisted => ?_) fun _ _ _ _ => trivial
  refine reconcileEffects_checked effects fun effect heffect hwaiting => ?_
  exact ⟨_, hlisted effects rfl, effect, heffect, rfl, rfl, by simp [hwaiting]⟩

theorem caller_checked (c : Caller) : Safe Checked h c.program := by
  cases c with
  | call a => exact (call_checked a).bind fun _ _ _ => safe_pure
  | reconcile taskId => exact (reconcileApprovalEffects_checked taskId).bind fun _ _ _ => safe_pure

theorem calls_follow (es : List CallEvent) :
    ∀ t ∈ (callsAfter es).threads, Follows Checked (callsAfter es).log t :=
  run_follows (M := callMachine) (fun c => caller_checked c) (fun _ _ a _ _ _ => a.elim) .empty es

end Discipline

section Outcomes

variable [PythonText] {k id : Str} {stored : Json} {db db' : TaskDb} {env : Env} {op : Op}
  {s : Store}

/-- The receipt of the operation is committed with the result. -/
def Committed (db : TaskDb) (k id : Str) (stored : Json) : Prop :=
  ∃ row, db.effect? k id = some row ∧ row.state = .committed ∧ row.result = stored

/-- A `finish_effect` that has committed the receipt with the result. -/
def Records (k id : Str) (stored : Json) : CallEntry → Prop
  | .ran _ (.finishEffect k' id' state result) reply => k' = k ∧ id' = id ∧
      state = .committed ∧ storedResult result = .ok stored ∧ reply.isOk = true
  | _ => False

def ChecksBy (worker : Nat) (k id : Str) : CallEntry → Prop
  | .ran w op reply => w = worker ∧ Checks k id ⟨op, reply⟩
  | .outside _ _ => False

omit [PythonText] in
theorem committed_of_reserves (h : Reserves db db') (hdb : Committed db' k id stored) :
    Committed db k id stored := by
  obtain ⟨row, hrow, hstate, hresult⟩ := hdb
  obtain hsame | ⟨-, row', hrow', hreserved⟩ := h k id
  · exact ⟨row, hsame ▸ hrow, hstate, hresult⟩
  · obtain rfl : row = row' := Option.some.inj (hrow.symm.trans hrow')
    simp [hstate] at hreserved

omit [PythonText] in
theorem committed_reserves (h : Reserves db db') (hdb : Committed db k id stored) :
    Committed db' k id stored := by
  obtain ⟨row, hrow, hstate, hresult⟩ := hdb
  obtain hsame | ⟨hnone, -⟩ := h k id
  · exact ⟨row, hsame ▸ hrow, hstate, hresult⟩
  · simp [hrow] at hnone

/-- A receipt that is committed was so before, or the request has recorded it. -/
theorem committed_of_exec (worker : Nat) (h : Committed (exec env op s).2.tasks k id stored) :
    Committed s.tasks k id stored ∨ Records k id stored (.ran worker op (exec env op s).1) := by
  cases hfinishes : op.finishes with
  | false => exact .inl (committed_of_reserves (exec_reserves hfinishes) h)
  | true =>
    cases op with
    | finishEffect k' id' state result =>
      by_cases htook : (exec env (.finishEffect k' id' state result) s).1.isOk = true
      · obtain ⟨stored', old, hstored, hold, hafter⟩ := finish_spec htook
        obtain ⟨row, hrow, hstate, hresult⟩ := h
        rw [hafter] at hrow
        split at hrow
        · next hsame =>
          obtain rfl := Option.some.inj hrow
          have hcommitted : state = .committed := hstate
          have hsave : stored' = stored := hresult
          exact .inr ⟨hsame.1, hsame.2, hcommitted, hsave ▸ hstored, htook⟩
        · exact .inl ⟨row, hrow, hstate, hresult⟩
      · have hsame : (exec env (.finishEffect k' id' state result) s).2.tasks = s.tasks :=
          onTasks_of_not_ok htook
        exact .inl (hsame ▸ h)
    | _ => exact absurd hfinishes Bool.noConfusion

/-- A committed receipt stays as it is under any write but one with another outcome. -/
theorem exec_committed (h : Committed s.tasks k id stored)
    (hsame : ∀ state result, op = .finishEffect k id state result →
      op.tookEffect (exec env op s).1 = true →
      state = .committed ∧ storedResult result = .ok stored) :
    Committed (exec env op s).2.tasks k id stored := by
  cases hfinishes : op.finishes with
  | false => exact committed_reserves (exec_reserves hfinishes) h
  | true =>
    cases op with
    | finishEffect k' id' state result =>
      by_cases htook : (exec env (.finishEffect k' id' state result) s).1.isOk = true
      · obtain ⟨stored', old, hstored, hold, hafter⟩ := finish_spec htook
        obtain ⟨row, hrow, hstate, hresult⟩ := h
        by_cases hkey : k' = k ∧ id' = id
        · obtain ⟨rfl, rfl⟩ := hkey
          obtain ⟨rfl, hstored'⟩ := hsame state result rfl htook
          refine ⟨_, by rw [hafter, if_pos ⟨rfl, rfl⟩], rfl, ?_⟩
          exact Except.ok.inj (hstored.symm.trans hstored')
        · exact ⟨row, by rw [hafter, if_neg hkey]; exact hrow, hstate, hresult⟩
      · have hunchanged : (exec env (.finishEffect k' id' state result) s).2.tasks = s.tasks :=
          onTasks_of_not_ok htook
        exact hunchanged ▸ h
    | _ => exact absurd hfinishes Bool.noConfusion

/-- Whoever checks a receipt leaves it open. -/
theorem not_committed_of_checks (h : Checks k id ⟨op, (exec env op s).1⟩) :
    ¬ Committed (exec env op s).2.tasks k id stored := by
  rintro ⟨row, hrow, hstate, -⟩
  cases op with
  | reserveEffect a =>
    obtain ⟨rfl, rfl, seen, hseen, hopen⟩ := h
    obtain ⟨⟨shown, created⟩, hrun, rfl⟩ := Transaction.reply_mapReply_eq_ok.1 hseen
    have hafter : (exec env (.reserveEffect a) s).2.tasks =
        ((reserveEffect a env.freshId env.now).mapReply Prod.fst).commit s.tasks := rfl
    rw [hafter, Transaction.commit_mapReply] at hrow
    have hshown : ((reserveEffect a env.freshId env.now).commit s.tasks).effect? a.taskId
        a.logicalOperationId = some shown := by
      obtain ⟨hsame, hexisting⟩ | ⟨-, -, hadded⟩ := reserveEffect_spec hrun
      · rwa [hsame]
      · rw [hadded, if_pos ⟨rfl, rfl⟩]
    obtain rfl : row = shown := Option.some.inj (hrow.symm.trans hshown)
    exact hopen hstate
  | listEffects taskId =>
    obtain ⟨seen, hseen, rfl, rfl, hopen⟩ := h
    have hmem : seen ∈ s.tasks.effects.rows := by
      have hlisted : seen ∈ listEffects s.tasks taskId := hseen
      rw [listEffects, List.mem_insertionSort] at hlisted
      exact (List.mem_filter.1 hlisted).1
    have hfind : s.tasks.effect? seen.taskId seen.logicalOperationId = some seen :=
      Table.find?_of_mem hmem
    obtain rfl : row = seen := Option.some.inj (hrow.symm.trans hfind)
    exact hopen hstate
  | _ => exact h.elim

end Outcomes

section Runs

variable [PythonText] {s : CallSystem} {k id : Str} {stored : Json}

/-- A committed receipt that somebody has seen open was recorded since. -/
def Recorded (s : CallSystem) : Prop :=
  ∀ a e b, s.log = a ++ e :: b → ∀ worker k id, ChecksBy worker k id e → ∀ stored,
    Committed s.state.tasks k id stored → ∃ c ∈ b, Records k id stored c

theorem step_recorded (s : CallSystem) (e : CallEvent) (h : Recorded s) :
    Recorded (callMachine.step s e) := by
  have hextend : ∀ (x : CallEntry) (state : Store),
      (∀ k id stored, Committed state.tasks k id stored →
        Committed s.state.tasks k id stored ∨ Records k id stored x) →
      (∀ worker k id stored, ChecksBy worker k id x → ¬ Committed state.tasks k id stored) →
      ∀ a y b, s.log ++ [x] = a ++ y :: b → ∀ worker k id, ChecksBy worker k id y → ∀ stored,
        Committed state.tasks k id stored → ∃ c ∈ b, Records k id stored c := by
    intro x state hsource hopen a y b hsplit worker k id hchecks stored hcommitted
    obtain ⟨rfl, rfl, rfl⟩ | ⟨b', rfl, hlog⟩ := concat_eq_append_cons hsplit
    · exact absurd hcommitted (hopen worker k id stored hchecks)
    · rcases hsource k id stored hcommitted with hbefore | hrecords
      · obtain ⟨c, hc, hrecords⟩ := h a y b' hlog worker k id hchecks stored hbefore
        exact ⟨c, List.mem_append_left _ hc, hrecords⟩
      · exact ⟨x, by simp, hrecords⟩
  rcases step_cases (M := callMachine) s e with
    ⟨i, env, worker, history, op, -, -, hstate, hlog⟩ | ⟨o, -, hstate, hlog⟩ | ⟨-, hstate, hlog⟩
  · intro a y b hsplit w k id hchecks stored hcommitted
    rw [hstate] at hcommitted
    refine hextend _ _ (fun k id stored h => committed_of_exec worker h) ?_ a y b (hlog ▸ hsplit)
      w k id hchecks stored hcommitted
    exact fun w k id stored hchecks => not_committed_of_checks hchecks.2
  · intro a y b hsplit w k id hchecks stored hcommitted
    rw [hstate] at hcommitted
    refine hextend (.outside o ()) _ (fun k id stored h => .inl ?_) ?_ a y b (hlog ▸ hsplit)
      w k id hchecks stored hcommitted
    · exact committed_of_reserves (beside_reserves o) h
    · exact fun w k id stored hchecks => hchecks.elim
  · intro a y b hsplit w k id hchecks stored hcommitted
    rw [hstate] at hcommitted
    exact h a y b (hlog ▸ hsplit) w k id hchecks stored hcommitted

theorem reachable_recorded (es : List CallEvent) : Recorded (callsAfter es) := by
  refine run_invariant step_recorded ?_ es
  intro a e b hsplit
  simp [Machine.start] at hsplit

/-- Since a check of its receipt by the thread, no other outcome of the operation has been
committed than the one that is about to be written. -/
def Undisturbed (log : List CallEntry) (worker : Nat) : Op → Prop
  | .finishEffect k id state result => ∃ a e b, log = a ++ e :: b ∧ ChecksBy worker k id e ∧
      ∀ c ∈ b, ∀ stored, Records k id stored c →
        state = .committed ∧ storedResult result = .ok stored
  | _ => True

def OrderlyStep (s : CallSystem) (e : CallEvent) : Prop :=
  ∀ i env worker history op, e = .step i env → pending? s i = some (worker, history, op) →
    op.tookEffect (exec env op s.state).1 = true → Undisturbed s.log worker op

/-- An orderly step keeps every committed receipt. -/
theorem step_committed {e : CallEvent} (hs : Recorded s) (hok : OrderlyStep s e)
    (h : Committed s.state.tasks k id stored) :
    Committed (callMachine.step s e).state.tasks k id stored := by
  rcases step_cases (M := callMachine) s e with
    ⟨i, env, worker, history, op, rfl, hpending, hstate, -⟩ | ⟨o, -, hstate, -⟩ | ⟨-, hstate, -⟩
  · rw [hstate]
    refine exec_committed h fun state result hop htook => ?_
    have hsettled := hok i env worker history op rfl hpending htook
    rw [hop] at hsettled
    obtain ⟨a, c, b, hsplit, hchecks, hlater⟩ := hsettled
    obtain ⟨d, hd, hrecords⟩ := hs a c b hsplit worker k id hchecks stored h
    exact hlater d hd stored hrecords
  · rw [hstate]
    exact committed_reserves (beside_reserves o) h
  · rwa [hstate]

/-- Every outcome that was ever recorded stands. -/
def Standing (s : CallSystem) : Prop :=
  ∀ c ∈ s.log, ∀ k id stored, Records k id stored c → Committed s.state.tasks k id stored

theorem committed_of_records {env : Env} {op : Op} {store : Store} {worker : Nat}
    (h : Records k id stored (.ran worker op (exec env op store).1)) :
    Committed (exec env op store).2.tasks k id stored := by
  cases op with
  | finishEffect k' id' state result =>
    obtain ⟨rfl, rfl, rfl, hresult, hdone⟩ := h
    obtain ⟨stored', old, hstored, -, hafter⟩ := finish_spec hdone
    refine ⟨_, by rw [hafter, if_pos ⟨rfl, rfl⟩], rfl, ?_⟩
    exact Except.ok.inj (hstored.symm.trans hresult)
  | _ => exact h.elim

theorem step_standing {e : CallEvent} (hs : Recorded s) (hok : OrderlyStep s e) (h : Standing s) :
    Standing (callMachine.step s e) := by
  intro c hc k id stored hrecords
  have hold : c ∈ s.log → Committed (callMachine.step s e).state.tasks k id stored :=
    fun hmem => step_committed hs hok (h c hmem k id stored hrecords)
  rcases step_cases (M := callMachine) s e with
    ⟨i, env, worker, history, op, -, -, hstate, hlog⟩ | ⟨o, -, hstate, hlog⟩ | ⟨-, hstate, hlog⟩
  · rw [hlog] at hc
    rcases List.mem_append.1 hc with hc | hc
    · exact hold hc
    · obtain rfl := List.mem_singleton.1 hc
      rw [hstate]
      exact committed_of_records hrecords
  · rw [hlog] at hc
    rcases List.mem_append.1 hc with hc | hc
    · exact hold hc
    · obtain rfl := List.mem_singleton.1 hc
      exact hrecords.elim
  · exact hold (hlog ▸ hc)

theorem reachable_standing (es : List CallEvent)
    (horderly : ∀ pre e post, es = pre ++ e :: post → OrderlyStep (callsAfter pre) e) :
    Standing (callsAfter es) := by
  have hstep : ∀ (s : CallSystem) (e : CallEvent), OrderlyStep s e → Recorded s ∧ Standing s →
      Recorded (callMachine.step s e) ∧ Standing (callMachine.step s e) :=
    fun s e hok h => ⟨step_recorded s e h.1, step_standing h.1 hok h.2⟩
  have hstart : Standing (callsAfter []) := fun c hc => by simp [callsAfter, Machine.start] at hc
  exact (run_invariant_of_forall hstep ⟨reachable_recorded [], hstart⟩ es horderly).2

/-- Where every recorded outcome stands, only an orderly write keeps it standing. -/
theorem undisturbed_of_committed {env : Env} {worker : Nat} {history : History Op.Reply} {op : Op}
    (hstanding : Standing s) (hallowed : Checked history op)
    (hlogged : List.Sublist (history.map fun e => Entry.ran worker e.1 e.2) s.log)
    (htook : op.tookEffect (exec env op s.state).1 = true)
    (hkept : ∀ k id stored, Committed s.state.tasks k id stored →
      Committed (exec env op s.state).2.tasks k id stored) : Undisturbed s.log worker op := by
  cases op with
  | finishEffect k id state result =>
    obtain ⟨e, he, hchecks⟩ := hallowed k id state result rfl
    obtain ⟨a, b, hsplit⟩ := List.append_of_mem (hlogged.subset (List.mem_map_of_mem he))
    refine ⟨a, _, b, hsplit, ⟨rfl, hchecks⟩, fun c hc stored hrecords => ?_⟩
    have hbefore := hstanding c (by simp [hsplit, hc]) k id stored hrecords
    obtain ⟨row, hrow, hstate, hresult⟩ := hkept k id stored hbefore
    obtain ⟨stored', old, hstored, -, hafter⟩ := finish_spec htook
    rw [hafter, if_pos ⟨rfl, rfl⟩] at hrow
    obtain rfl := Option.some.inj hrow
    have hsave : stored' = stored := hresult
    exact ⟨hstate, hsave ▸ hstored⟩
  | _ => trivial

theorem orderly_of_committed (es : List CallEvent)
    (horderly : ∀ pre e post, es = pre ++ e :: post → OrderlyStep (callsAfter pre) e)
    {e : CallEvent} (hkept : ∀ k id stored, Committed (callsAfter es).state.tasks k id stored →
      Committed (callsAfter (es ++ [e])).state.tasks k id stored) :
    OrderlyStep (callsAfter es) e := by
  rintro i env worker history op rfl hpending htook
  obtain ⟨hallowed, hlogged⟩ := Follows.allowed (calls_follow es) hpending
  have hlast : callsAfter (es ++ [.step i env]) = callMachine.serve (callsAfter es) i env :=
    run_concat (Machine.start Store.empty) es (.step i env)
  have hstate : (callMachine.serve (callsAfter es) i env).state =
      (exec env op (callsAfter es).state).2 := (serve_of_pending hpending).1
  rw [hlast, hstate] at hkept
  exact undisturbed_of_committed (reachable_standing es horderly) hallowed hlogged htook hkept

/-- A step that serves no `finish_effect`. -/
def quiet (s : CallSystem) : CallEvent → Bool
  | .step i _ => (pending? s i).all fun p => !p.2.2.finishes
  | .start _ | .outside _ => true

theorem orderly_of_quiet {e : CallEvent} (h : quiet s e = true) : OrderlyStep s e := by
  rintro i env worker history op rfl hpending -
  rw [quiet, hpending] at h
  cases op with
  | finishEffect k id state result => exact absurd h Bool.false_ne_true
  | _ => trivial

/-- In every run of overlapping calls and reconciliations in which each recorded outcome follows a
check of its own thread since which no different outcome was committed, committed receipts never
change. The next step keeps all of them exactly if it meets this condition too. -/
theorem committed_receipts (es : List CallEvent)
    (horderly : ∀ pre e post, es = pre ++ e :: post → OrderlyStep (callsAfter pre) e) :
    (∀ pre post, es = pre ++ post → ∀ k id stored,
      Committed (callsAfter pre).state.tasks k id stored →
      Committed (callsAfter es).state.tasks k id stored) ∧
    ∀ e, (∀ k id stored, Committed (callsAfter es).state.tasks k id stored →
      Committed (callsAfter (es ++ [e])).state.tasks k id stored) ↔
      OrderlyStep (callsAfter es) e := by
  constructor
  · rintro pre post rfl k id stored hcommitted
    have hstep : ∀ (s : CallSystem) (e : CallEvent), OrderlyStep s e →
        Recorded s ∧ Committed s.state.tasks k id stored →
        Recorded (callMachine.step s e) ∧
          Committed (callMachine.step s e).state.tasks k id stored :=
      fun s e hok h => ⟨step_recorded s e h.1, step_committed h.1 hok h.2⟩
    have hsplit : callsAfter (pre ++ post) = run callMachine.step (callsAfter pre) post :=
      run_append ..
    rw [hsplit]
    refine (run_invariant_of_forall hstep ⟨reachable_recorded pre, hcommitted⟩ post ?_).2
    rintro front e back rfl
    have hthere := horderly (pre ++ front) e back (by simp)
    have hfront : callsAfter (pre ++ front) = run callMachine.step (callsAfter pre) front :=
      run_append ..
    rwa [hfront] at hthere
  · intro e
    have hlast : callsAfter (es ++ [e]) = callMachine.step (callsAfter es) e :=
      run_concat (Machine.start Store.empty) es e
    refine ⟨orderly_of_committed es horderly, fun hok k id stored h => ?_⟩
    rw [hlast]
    exact step_committed (reachable_recorded es) hok h

end Runs

section Sample

def sampleSecond (second : Fin 1000) : Instant :=
  ⟨second.val * 1000000, seconds_lt_maxMicros second⟩

def sampleTool : ToolDescriptor where
  toolId := "calendar.create"
  skillId := "skill.calendar"
  contractVersion := 1
  purpose := "Create one event."
  inputSchema := .obj []
  observationSchema := .obj []
  effect := .externalWrite
  approvalRule := .none
  approvalConditions := []
  sensitivity := .privateData
  persistence := .standard
  idempotency := .required
  effectCardinality := .single
  transferableObservationFields := []
  runtimeDependencies := []
  timeoutSeconds := 30
  maxResultItems := 1
  maxObservationChars := 2000
  legacyIntents := []
  interactive := true
  toolId_valid := by decide
  skillId_valid := isSkillId_calendar
  contractVersion_valid := firstVersion_valid

def sampleEnvelope : ToolCallEnvelope where
  rootRequestId := "root1"
  operationId := "op1"
  callOrdinal := 1
  sessionId := "s1"
  principalKind := "owner"
  principalSubject := "owner"
  externalUserId := "u1"
  userId := "u1"
  agentId := "agent"
  sourceInterface := "task"
  channelScope := "task_workspace"
  skillId := "skill.calendar"
  toolId := "calendar.create"
  contractVersion := 1
  authorizationSnapshotRef := "a1"
  argumentsHash := "x1"
  arguments := []
  descriptorHash := "d1"
  resourceVersion := "1"

def bookedRequest : TaskRequest where
  ownerId := "owner"
  sourceInterface := "local"
  submissionId := "s1"
  goal := "Book lunch."
  title := []
  sessionId := none
  workspaceRef := "w1"
  budgetSeconds := 60000000
  modelDecisions := 10
  capabilityCalls := 10

def sampleCall : CallArgs where
  task := bookedRequest.row "t1" "2000-01-01T00:00:00+00:00"
  agentId := "agent"
  toolId := "calendar.create"
  contractVersion := 1
  arguments := []
  logicalOperationId := "book"
  callOrdinal := 1
  expectedSteeringRevision := 0

/-- The provider answers with the status. -/
def providerEnv (status : String) : Env where
  now := sampleSecond 3
  freshId := "receipt1"
  prepared := .ok (.inr ⟨sampleEnvelope, sampleTool, "d1", "1"⟩)
  executed := .ok [("status", .str (text status))]

/-- Two calls of one operation that have both seen its receipt reserved. -/
def reservedRun : List CallEvent :=
  [.outside (.outside (.createTask bookedRequest "t1" (sampleSecond 0))),
    .outside (.request (.beginRun "t1" "j1" 1) { now := sampleSecond 1 }),
    .start (.call sampleCall), .start (.call sampleCall)] ++
  List.replicate 3 (.step 0 (providerEnv "ok")) ++ List.replicate 3 (.step 1 (providerEnv "ok"))

/-- The first call commits, and the second one is answered that its outcome is uncertain. -/
def overwrittenRun : List CallEvent :=
  reservedRun ++ List.replicate 2 (.step 0 (providerEnv "ok")) ++
    List.replicate 2 (.step 1 (providerEnv "uncertain"))

def committedRun : List CallEvent :=
  reservedRun ++ List.replicate 2 (.step 0 (providerEnv "ok"))

/-- A reconciliation looks at the receipt after its commit. -/
def reconciledRun : List CallEvent :=
  committedRun ++ [.start (.reconcile "t1"), .step 2 (providerEnv "ok")]

theorem committed_receipts_reconciledRun :
    Committed (@callsAfter asciiText reconciledRun).state.tasks "t1" "book"
      (.obj [(text "status", .str "ok")]) := by
  have hquiet : ∀ n < 14, n ≠ 11 → (reconciledRun[n]?).all
      (quiet (@callsAfter asciiText (reconciledRun.take n))) = true := by decide +kernel
  have hopen : (@callsAfter asciiText (reconciledRun.take 11)).state.tasks.effects.rows.all
      (·.state ≠ .committed) = true := by decide +kernel
  have hcommitted : ((@callsAfter asciiText committedRun).state.tasks.effect? "t1" "book").any
      (fun row => row.state = .committed && row.result = .obj [(text "status", .str "ok")]) =
      true := by decide +kernel
  have hlength : reconciledRun.length = 14 := by decide
  have hother : ∀ pre e post, reconciledRun = pre ++ e :: post → pre.length ≠ 11 →
      @OrderlyStep asciiText (@callsAfter asciiText pre) e := by
    intro pre e post hsplit hne
    have hlt : pre.length < 14 := by
      rw [hsplit, List.length_append, List.length_cons] at hlength
      omega
    have hhere := hquiet pre.length hlt hne
    have hevent : reconciledRun[pre.length]? = some e := by simp [hsplit]
    have hfront : reconciledRun.take pre.length = pre := by simp [hsplit]
    rw [hevent, hfront, Option.all_some] at hhere
    exact @orderly_of_quiet asciiText _ _ hhere
  have horderly : ∀ pre e post, reconciledRun = pre ++ e :: post →
      @OrderlyStep asciiText (@callsAfter asciiText pre) e := by
    intro pre e post hsplit
    by_cases hfinish : pre.length = 11
    · have hfront : reconciledRun.take 11 = pre := by rw [hsplit, ← hfinish, List.take_left]
      rw [hfront] at hopen
      refine @orderly_of_committed asciiText pre (fun front x back hpre => ?_) e
        fun k id stored hstored => ?_
      · refine hother front x (back ++ e :: post) (by rw [hsplit, hpre]; simp) ?_
        rw [hpre, List.length_append, List.length_cons] at hfinish
        omega
      · obtain ⟨row, hrow, hstate, -⟩ := hstored
        have hrowOpen := List.all_eq_true.1 hopen row (Table.mem_of_find? hrow)
        simp [hstate] at hrowOpen
    · exact hother pre e post hsplit hfinish
  obtain ⟨row, hrow, hstate⟩ := (Option.any_eq_true _ _).1 hcommitted
  rw [Bool.and_eq_true, decide_eq_true_eq, decide_eq_true_eq] at hstate
  exact (@committed_receipts asciiText reconciledRun horderly).1 committedRun _ rfl "t1" "book" _
    ⟨row, hrow, hstate⟩

theorem uncertain_overwrittenRun :
    ((@callsAfter asciiText (overwrittenRun.take 12)).state.tasks.effect? "t1" "book").map
      (·.state) = some .committed ∧
    ((@callsAfter asciiText overwrittenRun).state.tasks.effect? "t1" "book").map (·.state) =
      some .uncertain := by
  decide +kernel

end Sample

end HardyAI.Tasks
