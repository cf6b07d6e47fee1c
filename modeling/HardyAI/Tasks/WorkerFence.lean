import HardyAI.Tasks.TaskRows
import HardyAI.Tasks.Worker

/-! The discipline of the worker: it writes to a task only at a steering revision that it has
read, and completes a task only on a decision that the model has made since. -/

open Foundation Foundation.Json Foundation.Program HardyAI.Jobs HardyAI.Skills

namespace HardyAI.Tasks

section Discipline

/-- A read of the task that has returned the steering revision. -/
def Reads (taskId : Str) (r : Int) : Sigma Op.Reply → Prop
  | ⟨.budgetAvailable _, reply⟩ =>
    ∃ t, reply = some t ∧ t.taskId = taskId ∧ t.steeringRevision = r
  | ⟨.getTask _, reply⟩ => ∃ t, reply = some t ∧ t.taskId = taskId ∧ t.steeringRevision = r
  | _ => False

/-- A decision of the model on the task. -/
def Decides (taskId : Str) : Sigma Op.Reply → Prop
  | ⟨.chat task, reply⟩ => task.taskId = taskId ∧ ∃ m, reply = .ok m
  | _ => False

def Known (h : History Op.Reply) (taskId : Str) (r : Int) : Prop := ∃ e ∈ h, Reads taskId r e

/-- The model has decided since the revision was read. -/
def Decided (h : History Op.Reply) (taskId : Str) (r : Int) : Prop :=
  ∃ h₁ e h₂, h = h₁ ++ e :: h₂ ∧ Reads taskId r e ∧ ∃ d ∈ h₂, Decides taskId d

structure Fenced (h : History Op.Reply) (op : Op) : Prop where
  known : ∀ taskId r, op.fence = some (taskId, r) → Known h taskId r
  decided : ∀ taskId a expected, op = .workerTransition taskId a expected →
    a.status = .completed → ∃ r, expected = some r ∧ Decided h taskId r

variable {h h' : History Op.Reply} {taskId : Str} {r : Int}

theorem Known.mono (hk : Known h taskId r) (hpre : h <+: h') : Known h' taskId r := by
  obtain ⟨e, he, hread⟩ := hk
  exact ⟨e, hpre.subset he, hread⟩

theorem Decided.mono (hd : Decided h taskId r) (hpre : h <+: h') : Decided h' taskId r := by
  obtain ⟨h₁, e, h₂, rfl, hread, d, hd, hdecides⟩ := hd
  obtain ⟨rest, rfl⟩ := hpre
  exact ⟨h₁, e, h₂ ++ rest, by simp, hread, d, List.mem_append_left _ hd, hdecides⟩

theorem Decided.known (hd : Decided h taskId r) : Known h taskId r := by
  obtain ⟨h₁, e, h₂, rfl, hread, -⟩ := hd
  exact ⟨e, by simp, hread⟩

/-- The requests that the discipline leaves free. -/
def Op.free : Op → Bool
  | .consumeUsage .. | .setPlan .. | .workerTransition .. | .savePreference _
  | .saveSkillRevision _ => false
  | _ => true

theorem fence_of_free {op : Op} (hop : op.free = true) : op.fence = none := by
  cases op <;> first | rfl | exact absurd hop Bool.false_ne_true

theorem fenced_of_free {op : Op} (hop : op.free = true) : Fenced h op := by
  refine ⟨fun taskId r hfence => ?_, fun taskId a expected heq => ?_⟩
  · rw [fence_of_free hop] at hfence
    exact absurd hfence (by simp)
  · rw [heq] at hop
    exact absurd hop Bool.false_ne_true

def Op.isTransition : Op → Bool
  | .workerTransition .. => true
  | _ => false

theorem fenced_of_known {op : Op} (hfence : op.fence = some (taskId, r))
    (hk : Known h taskId r) (hop : op.isTransition = false) : Fenced h op := by
  refine ⟨fun k r' hf => ?_, fun k a expected heq _ => ?_⟩
  · obtain ⟨rfl, rfl⟩ : taskId = k ∧ r = r' := by simpa [hfence] using hf
    exact hk
  · rw [heq] at hop
    exact Bool.noConfusion hop

/-- A transition that does not complete the task. -/
theorem fenced_transition {a : TransitionArgs} {expected : Option Int}
    (ha : a.status ≠ .completed) (hk : ∀ r ∈ expected, Known h taskId r) :
    Fenced h (.workerTransition taskId a expected) := by
  refine ⟨fun k r' hf => ?_, fun k a' expected' heq hdone => ?_⟩
  · obtain ⟨r'', rfl, rfl, rfl⟩ : ∃ r'', expected = some r'' ∧ taskId = k ∧ r'' = r' := by
      simpa [Op.fence] using hf
    exact hk r'' rfl
  · obtain ⟨-, rfl, -⟩ := Op.workerTransition.inj heq
    exact absurd hdone ha

theorem fenced_completion {a : TransitionArgs} (hd : Decided h taskId r) :
    Fenced h (.workerTransition taskId a (some r)) := by
  refine ⟨fun k r' hf => ?_, fun k a' expected' heq _ => ?_⟩
  · obtain ⟨rfl, rfl⟩ : taskId = k ∧ r = r' := by simpa [Op.fence] using hf
    exact hd.known
  · obtain ⟨rfl, -, rfl⟩ := Op.workerTransition.inj heq
    exact ⟨r, rfl, hd⟩

theorem safe_free {op : Op} (hop : op.free = true) : Safe Fenced h (ask op) :=
  safe_perform (fenced_of_free hop)

theorem safe_conflict? {α : Type} {p : Process α} (hp : Safe Fenced h p) :
    Safe Fenced h (conflict? p) := by
  refine (hp.bind fun _ _ _ => safe_pure).handle fun h' e _ => ?_
  cases e <;> exact trivial

end Discipline

section Bridge

variable [PythonText] {h : History Op.Reply}

omit [PythonText] in
theorem getActionProposal_safe (proposalId : Str) :
    Safe Fenced h (getActionProposal proposalId) :=
  (safe_free rfl).raising.bind fun _ _ _ => safe_free rfl

theorem reconcileEffect_safe (effect : EffectReceipt) : Safe Fenced h (reconcileEffect effect) := by
  refine safe_ofExcept.bind fun h' proposalId _ => ?_
  split
  · exact safe_pure
  · refine (getActionProposal_safe proposalId).bind fun h' proposal _ => ?_
    cases projection proposal with
    | none => exact safe_pure
    | some outcome => exact (safe_free rfl).raising.bind fun _ _ _ => safe_pure

theorem reconcileEffects_safe (effects : List EffectReceipt) :
    Safe Fenced h (reconcileEffects effects) := by
  induction effects generalizing h with
  | nil => exact safe_pure
  | cons effect effects ih =>
    have hwaiting : Safe Fenced h (reconcileWaiting effect) := by
      unfold reconcileWaiting
      split
      · exact reconcileEffect_safe effect
      · exact safe_pure
    exact hwaiting.bind fun h' one _ => ih.bind fun _ _ _ => safe_pure

theorem reconcileApprovalEffects_safe (taskId : Str) :
    Safe Fenced h (reconcileApprovalEffects taskId) :=
  (safe_free rfl).bind fun _ effects _ => reconcileEffects_safe effects

theorem approvalResult_safe (prepared : PreparedToolCall) (existing : EffectReceipt) :
    Safe Fenced h (approvalResult prepared existing) := by
  unfold approvalResult
  split
  · refine safe_ofExcept.bind fun h' proposalId _ => ?_
    have hprior : Safe Fenced h' (priorProposal proposalId) := by
      unfold priorProposal
      split
      · exact safe_pure
      · exact getActionProposal_safe proposalId
    exact hprior.bind fun _ _ _ => safe_pure
  · refine (safe_free rfl).bind fun h' reply _ => ?_
    cases reply <;> exact safe_pure

omit [PythonText] in
theorem finishCall_safe (a : CallArgs) (logicalId : Str) (state : EffectState) (result : Fields) :
    Safe Fenced h (finishCall a logicalId state result) :=
  (safe_free rfl).raising.bind fun _ _ _ => safe_pure

theorem callEffect_safe (a : CallArgs) (logicalId : Str) (prepared : PreparedToolCall) :
    Safe Fenced h (callEffect a logicalId prepared) := by
  refine (safe_free rfl).raising.bind fun h' existing _ => ?_
  split
  · exact safe_pure
  · split
    · exact (approvalResult_safe prepared existing).bind fun _ _ _ => finishCall_safe ..
    · exact (safe_free rfl).raising.bind fun _ _ _ =>
        safe_ofExcept.bind fun _ _ _ => finishCall_safe ..

/-- A capability call writes to the task only at the revision it is given. -/
theorem call_safe (a : CallArgs) (hk : Known h a.task.taskId a.expectedSteeringRevision) :
    Safe Fenced h (call a) := by
  refine Safe.ite safe_pure ?_
  · refine (safe_free rfl).raising.bind fun h₁ prepared hpre => ?_
    cases prepared with
    | inl refusal => exact safe_pure
    | inr prepared =>
      change Safe Fenced h₁ (preparedCall a _ prepared)
      unfold preparedCall
      split
      · exact safe_pure
      · split
        · exact safe_pure
        · have hop : Fenced h₁ (.consumeUsage a.task.taskId a.expectedSteeringRevision 0 0 1) :=
            fenced_of_known rfl (hk.mono hpre) rfl
          refine (safe_conflict? (safe_perform hop).raising).bind fun h₂ charged _ => ?_
          cases charged with
          | error code => exact safe_pure
          | ok row =>
            change Safe Fenced h₂ (if _ then _ else _)
            split
            · exact callEffect_safe ..
            · exact (safe_free rfl).raising

end Bridge

section Tools

variable [PythonText] {h : History Op.Reply} {task : AgentTask} {arguments : Fields} {r : Int}

theorem bridgeCall_safe (w : WorkerConfig) (ordinal : Int) (hk : Known h task.taskId r) :
    Safe Fenced h (bridgeCall w task arguments r ordinal) := by
  refine Safe.handle ?_ fun h' e _ => ?_
  · refine safe_ofExcept.bind fun h₁ toolId hp₁ => safe_ofExcept.bind fun h₂ version hp₂ =>
      safe_ofExcept.bind fun h₃ logicalId hp₃ => call_safe _ ?_
    exact hk.mono ((hp₁.trans hp₂).trans hp₃)
  · change Safe Fenced h' (if _ then _ else _)
    split
    · exact safe_pure
    · exact safe_raise

theorem callCapability_safe (w : WorkerConfig) (ordinal : Int) (hk : Known h task.taskId r) :
    Safe Fenced h (callCapability w task arguments r ordinal) := by
  refine (bridgeCall_safe w ordinal hk).bind fun h₁ result hp₁ => ?_
  split
  · refine safe_ofExcept.bind fun h₂ message hp₂ => ?_
    have hop : Fenced h₂ (.workerTransition task.taskId
        { status := .waitingApproval
          summary := "Waiting for approval of a protected external effect."
          waitingPrompt := some message } (some r)) :=
      fenced_transition nofun fun r' hr => by
        obtain rfl : r = r' := by simpa using hr
        exact hk.mono (hp₁.trans hp₂)
    exact (safe_perform hop).raising.bind fun _ _ _ => safe_pure
  · exact safe_pure

theorem runPython_safe (w : WorkerConfig) : Safe Fenced h (runPython w task arguments r) := by
  refine safe_ofExcept.bind fun _ logicalRunId _ => safe_ofExcept.bind fun _ source _ => ?_
  split
  · exact safe_pure
  · refine (safe_free rfl).raising.bind fun h₁ script _ => ?_
    cases script with
    | replay result => exact safe_pure
    | run runId =>
      have hlaunch : Safe Fenced h₁ (Program.handle (do
            Program.raising (ask (.openBroker ⟨task, w.agentId, runId, r⟩))
            Program.raising (ask (.launchScript task runId)))
          fun e => .pure (runnerUnavailable e)) :=
        ((safe_free rfl).raising.bind fun _ _ _ => (safe_free rfl).raising).handle
          fun _ _ _ => safe_pure
      exact hlaunch.bind fun _ _ _ => (safe_free rfl).bind fun _ _ _ =>
        safe_ofExcept.bind fun _ _ _ => (safe_free rfl).raising.bind fun _ _ _ => safe_pure

theorem saveSkill_safe (hk : Known h task.taskId r) :
    Safe Fenced h (saveSkill task arguments r) := by
  refine safe_ofExcept.bind fun h₁ skillId hp₁ => safe_ofExcept.bind fun h₂ title hp₂ =>
    safe_ofExcept.bind fun h₃ instructions hp₃ => safe_ofExcept.bind fun h₄ source hp₄ =>
    safe_ofExcept.bind fun h₅ base hp₅ => ?_
  have hk₅ := hk.mono ((((hp₁.trans hp₂).trans hp₃).trans hp₄).trans hp₅)
  exact (safe_perform (fenced_of_known rfl hk₅ rfl)).raising.bind
    fun _ _ _ => safe_pure

theorem savePreferenceTool_safe (hk : Known h task.taskId r) :
    Safe Fenced h (savePreferenceTool task arguments r) := by
  refine safe_ofExcept.bind fun h₁ scope hp₁ => safe_ofExcept.bind fun h₂ rule hp₂ =>
    safe_ofExcept.bind fun h₃ source hp₃ => safe_ofExcept.bind fun h₄ skillId hp₄ => ?_
  have hk₄ := hk.mono (((hp₁.trans hp₂).trans hp₃).trans hp₄)
  exact (safe_perform (fenced_of_known rfl hk₄ rfl)).raising.bind
    fun _ _ _ => safe_pure

theorem updatePlan_safe (hk : Known h task.taskId r) :
    Safe Fenced h (updatePlan task arguments r) := by
  refine safe_ofExcept.bind fun h₁ plan hp₁ => safe_ofExcept.bind fun h₂ summary hp₂ => ?_
  have hk₂ := hk.mono (hp₁.trans hp₂)
  exact (safe_perform (fenced_of_known rfl hk₂ rfl)).raising.bind
    fun _ _ _ => safe_pure

theorem askUser_safe (hk : Known h task.taskId r) : Safe Fenced h (askUser task arguments r) := by
  refine safe_ofExcept.bind fun h₁ question hp₁ => safe_ofExcept.bind fun h₂ summary hp₂ => ?_
  have hop : Fenced h₂ (.workerTransition task.taskId
      { status := .waitingInput, summary, waitingPrompt := some (strip question) } (some r)) :=
    fenced_transition nofun fun r' hr => by
      obtain rfl : r = r' := by simpa using hr
      exact hk.mono (hp₁.trans hp₂)
  exact (safe_perform hop).raising.bind fun _ _ _ => safe_pure

theorem finishTask_safe (hd : Decided h task.taskId r) :
    Safe Fenced h (finishTask task arguments r) := by
  refine safe_ofExcept.bind fun h₁ result hp₁ => safe_ofExcept.bind fun h₂ summary hp₂ => ?_
  exact (safe_perform (fenced_completion (hd.mono (hp₁.trans hp₂)))).raising.bind
    fun _ _ _ => safe_pure

omit [PythonText] in
theorem ongoing_safe {p : Process Fields} (hp : Safe Fenced h p) : Safe Fenced h (ongoing p) :=
  hp.bind fun _ _ _ => safe_pure

omit [PythonText] in
theorem lookUp_safe (w : WorkerConfig) (what : Lookup) : Safe Fenced h (lookUp w task what) :=
  (safe_free rfl).raising

/-- Every tool keeps the discipline, given a decision made since the revision was read. -/
theorem executeTool_safe (w : WorkerConfig) (c : ToolCall) (ordinal : Int)
    (hd : Decided h task.taskId r) : Safe Fenced h (executeTool w task c r ordinal) := by
  unfold executeTool
  refine Safe.ite ?discover (Safe.ite ?load (Safe.ite ?describe (Safe.ite ?call (Safe.ite ?python
    (Safe.ite ?plan (Safe.ite ?ask (Safe.ite ?preference (Safe.ite ?skill (Safe.ite ?finish
      (ongoing_safe safe_pure))))))))))
  case discover => exact ongoing_safe (safe_ofExcept.bind fun _ _ _ => lookUp_safe w _)
  case load => exact ongoing_safe (safe_ofExcept.bind fun _ _ _ => lookUp_safe w _)
  case describe => exact ongoing_safe (safe_ofExcept.bind fun _ _ _ => lookUp_safe w _)
  case call => exact callCapability_safe w ordinal hd.known
  case python => exact ongoing_safe (runPython_safe w)
  case plan => exact ongoing_safe (updatePlan_safe hd.known)
  case ask => exact askUser_safe hd.known
  case preference => exact ongoing_safe (savePreferenceTool_safe hd.known)
  case skill => exact ongoing_safe (saveSkill_safe hd.known)
  case finish => exact finishTask_safe hd

end Tools

section Broker

variable [PythonText] {h : History Op.Reply}

omit [PythonText] in
theorem leaseHeld_safe (active : Option DurableJob) : Safe Fenced h (leaseHeld active) := by
  unfold leaseHeld
  split
  · split
    · split
      · exact safe_free rfl
      · exact safe_pure
    · exact safe_pure
  · exact safe_pure

omit [PythonText] in
/-- A read of the task makes its revision known. -/
theorem getTask_conforms (taskId : Str) :
    Conforms Fenced (fun h' x => ∀ t, x = .ok (some t) → Known h' t.taskId t.steeringRevision) h
      (ask (.getTask taskId)) := by
  refine conforms_perform.2 ⟨fenced_of_free rfl, fun reply t heq => ?_⟩
  have hreply : reply = some t := Except.ok.inj heq
  exact ⟨⟨.getTask taskId, reply⟩, by simp, t, hreply, rfl, rfl⟩

omit [PythonText] in
theorem currentTask_conforms (run : BrokerRun) :
    Conforms Fenced (fun h' x => ∀ t, x = .ok (some t) → Known h' t.taskId run.steeringRevision) h
      (currentTask run) := by
  refine (getTask_conforms run.task.taskId).bind (fun h₁ found _ hknown t heq => ?_)
    fun _ _ _ _ t heq => absurd heq (by simp)
  obtain ⟨hfound, hcurrent⟩ := Option.filter_eq_some_iff.1 (Except.ok.inj heq)
  simp only [Bool.and_eq_true, decide_eq_true_eq] at hcurrent
  rw [← hcurrent.2]
  exact hknown t (congrArg Except.ok hfound)

theorem requestArguments_safe (run : BrokerRun) (current : AgentTask) (request : Fields) :
    Safe Fenced h (requestArguments run current request) := by
  refine (safe_free rfl).bind fun h₁ active _ => (leaseHeld_safe active).bind fun h₂ held _ => ?_
  split
  · exact safe_pure
  · refine safe_ofExcept.bind fun h₃ action _ => ?_
    split
    · exact safe_ofExcept.bind fun _ _ _ => (safe_free rfl).raising.bind fun _ _ _ => safe_pure
    · split
      · exact safe_pure
      · split
        · exact safe_pure
        · exact safe_pure

theorem brokerCall_safe (run : BrokerRun) (current : AgentTask) (ordinal : Int)
    (request arguments : Fields) (hk : Known h current.taskId run.steeringRevision) :
    Safe Fenced h (brokerCall run current ordinal request arguments) := by
  refine safe_ofExcept.bind fun h₁ toolId hp₁ => safe_ofExcept.bind fun h₂ version hp₂ =>
    safe_ofExcept.bind fun h₃ logicalId hp₃ => Safe.bind (call_safe _ ?_) fun _ _ _ => safe_pure
  exact hk.mono ((hp₁.trans hp₂).trans hp₃)

theorem broker_safe (run : BrokerRun) (calls : Nat) (ordinal : Int) :
    Safe Fenced h (broker run calls ordinal) := by
  induction calls generalizing h ordinal with
  | zero => exact safe_pure
  | succ calls ih =>
    refine (safe_free rfl).bind fun h₁ request _ => ?_
    cases request with
    | none => exact safe_pure
    | some request =>
      refine (currentTask_conforms run).bind (fun h₂ current _ hknown => ?_) fun _ _ _ _ => trivial
      cases current with
      | none => exact ih ordinal
      | some current =>
        have hk := hknown current rfl
        have harguments := (requestArguments_safe (h := h₂) run current request).handle
          (f := fun _ => .pure none) fun _ _ _ => safe_pure
        refine harguments.bind fun h₃ arguments hp₃ => ?_
        cases arguments with
        | none => exact ih ordinal
        | some arguments =>
          exact ((brokerCall_safe run current (ordinal + 1) request arguments
            (hk.mono hp₃)).handle fun _ _ _ => safe_pure).bind fun _ _ _ => ih (ordinal + 1)

end Broker

section Steps

variable [PythonText] {h : History Op.Reply} {task : AgentTask} {r : Int}

omit [PythonText] in
theorem pauseAgain_safe (a : TransitionArgs) (ha : a.status = .pausedBudget) :
    Safe Fenced h (pauseAgain task a) := by
  refine (safe_free rfl).bind fun h₁ found _ => ?_
  change Safe Fenced h₁ (if _ then _ else _)
  split
  · have hop : Fenced h₁ (.workerTransition task.taskId a none) :=
      fenced_transition (by simp [ha]) nofun
    refine (safe_conflict? (safe_perform hop).raising).bind fun h₂ updated _ => ?_
    cases updated with
    | ok updated => exact safe_pure
    | error code => exact (safe_free rfl).bind fun _ _ _ => safe_pure
  · exact safe_pure

omit [PythonText] in
theorem pauseBudget_safe (found : Option AgentTask) (reason : Str)
    (hk : ∀ t ∈ found, Known h t.taskId t.steeringRevision) :
    Safe Fenced h (pauseBudget found reason) := by
  refine (safe_free rfl).bind fun h₁ effects hp₁ => ?_
  cases found with
  | none => exact safe_raise
  | some task =>
    have hop : Fenced h₁ (.workerTransition task.taskId
        { status := .pausedBudget, summary := pauseSummary reason effects
          errorCode := some reason } (some task.steeringRevision)) :=
      fenced_transition nofun fun r' hr => by
        obtain rfl : task.steeringRevision = r' := by simpa using hr
        exact (hk task rfl).mono hp₁
    refine (safe_conflict? (safe_perform hop).raising).bind fun h₂ updated _ => ?_
    cases updated with
    | ok updated => exact safe_pure
    | error code => exact pauseAgain_safe _ rfl

theorem appendToolResult_safe (taskId name : Str) (callId : Option Str) (result : Fields) :
    Safe Fenced h (appendToolResult taskId name callId result) :=
  safe_ofExcept.bind fun _ _ _ => (safe_free rfl).raising

theorem interruptCalls_safe (taskId : Str) (calls : List Json) :
    Safe Fenced h (interruptCalls taskId calls) := by
  induction calls generalizing h with
  | nil => exact safe_pure
  | cons call calls ih =>
    exact safe_ofExcept.bind fun _ _ _ => safe_ofExcept.bind fun _ _ _ =>
      (appendToolResult_safe taskId _ _ _).bind fun _ _ _ => ih

theorem executeCall_safe (w : WorkerConfig) (c : ToolCall) (seen : Nat) (ordinal : Int)
    (hd : Decided h task.taskId r) : Safe Fenced h (executeCall w task c seen r ordinal) := by
  unfold executeCall
  split
  · exact safe_pure
  · refine (safe_conflict? (executeTool_safe w c ordinal hd)).bind fun h₁ outcome _ => ?_
    cases outcome <;> exact safe_pure

theorem runCalls_safe (w : WorkerConfig) (step index : Int) (calls : List Json)
    (identical : List Str) (hd : Decided h task.taskId r) :
    Safe Fenced h (runCalls w task r step index calls identical) := by
  induction calls generalizing h index identical with
  | nil => exact safe_pure
  | cons call calls ih =>
    refine safe_ofExcept.bind fun h₁ c hp₁ => safe_ofExcept.bind fun _ callId hp =>
      safe_ofExcept.bind fun h₂ fingerprint hp₂ => ?_
    have hd₂ := hd.mono ((hp₁.trans hp).trans hp₂)
    refine (executeCall_safe w c _ _ hd₂).bind fun h₃ outcome hp₃ =>
      (appendToolResult_safe _ _ _ _).bind fun h₄ _ hp₄ => ?_
    obtain ⟨result, terminal⟩ := outcome
    cases terminal with
    | some status => exact safe_pure
    | none =>
      refine (safe_free rfl).bind fun h₅ refreshed hp₅ => ?_
      change Safe Fenced h₅ (if _ then _ else _)
      split
      · exact ih (index + 1) _ (hd₂.mono ((hp₃.trans hp₄).trans hp₅))
      · exact safe_pure

theorem answer_safe (content : Str) (identical : List Str) (hd : Decided h task.taskId r) :
    Safe Fenced h (answer task r content identical) := by
  unfold answer
  split
  · exact (appendToolResult_safe _ _ _ _).bind fun _ _ _ => safe_pure
  · refine (safe_conflict? (safe_perform (fenced_completion hd)).raising).bind
      fun h₁ updated _ => ?_
    cases updated <;> exact safe_pure

theorem followReply_safe (w : WorkerConfig) (step : Int) (identical : List Str)
    (reply : ModelReply) (hd : Decided h task.taskId r) :
    Safe Fenced h (followReply w task r step identical reply) := by
  unfold followReply
  split
  · exact answer_safe _ _ hd
  · refine (safe_free rfl).bind fun h₁ boundary hp₁ => ?_
    change Safe Fenced h₁ (if _ then _ else _)
    split
    · exact runCalls_safe w step 1 _ identical (hd.mono hp₁)
    · exact (interruptCalls_safe _ _).bind fun _ _ _ => safe_pure

omit [PythonText] in
/-- The reply of the model is a decision made since the revision was read. -/
theorem chat_conforms (hk : Known h task.taskId r) :
    Conforms Fenced (fun h' x => ∀ m, x = .ok m → Decided h' task.taskId r) h
      (.raising (ask (.chat task))) := by
  refine conforms_raising.2 (conforms_perform.2 ⟨fenced_of_free rfl, fun reply m heq => ?_⟩)
  obtain ⟨e, he, hread⟩ := hk
  obtain ⟨h₁, h₂, rfl⟩ := List.append_of_mem he
  refine ⟨h₁, e, h₂ ++ [⟨.chat task, reply⟩], by simp, hread, ⟨.chat task, reply⟩, by simp, rfl,
    m, heq⟩

omit [PythonText] in
theorem pauseStep_safe (found : Option AgentTask) (reason : Str)
    (hk : ∀ t ∈ found, Known h t.taskId t.steeringRevision) :
    Safe Fenced h (pauseStep found reason) :=
  (pauseBudget_safe found reason hk).bind fun _ _ _ => safe_pure

theorem decide_safe (w : WorkerConfig) (step : Int) (identical : List Str)
    (hk : Known h task.taskId task.steeringRevision) :
    Safe Fenced h (decide w task step identical) := by
  have hop : Fenced h (.consumeUsage task.taskId task.steeringRevision 0 1 0) :=
    fenced_of_known rfl hk rfl
  refine (safe_conflict? (safe_perform hop).raising).bind fun h₁ charged hp₁ => ?_
  cases charged with
  | error code =>
    change Safe Fenced h₁ (if _ then _ else _)
    refine Safe.ite (pauseStep_safe (some task) _ fun t ht => ?_) safe_pure
    obtain rfl : task = t := by simpa using ht
    exact hk.mono hp₁
  | ok row =>
    refine (chat_conforms (hk.mono hp₁)).bind (fun h₂ reply hp₂ hdecided => ?_)
      fun _ _ _ _ => trivial
    have hd₂ := hdecided reply rfl
    have husage : Fenced h₂ (.consumeUsage task.taskId task.steeringRevision reply.elapsed 0 0) :=
      fenced_of_known rfl hd₂.known rfl
    exact (safe_conflict? (safe_perform husage).raising).bind fun h₃ _ hp₃ =>
      (safe_free rfl).raising.bind fun h₄ _ hp₄ =>
        followReply_safe w step identical reply (hd₂.mono (hp₃.trans hp₄))

omit [PythonText] in
theorem budgetAvailable_conforms (taskId : Str) :
    Conforms Fenced (fun h' x => ∀ t, x = .ok (some t) → Known h' t.taskId t.steeringRevision) h
      (ask (.budgetAvailable taskId)) := by
  refine conforms_perform.2 ⟨fenced_of_free rfl, fun reply t heq => ?_⟩
  have hreply : reply = some t := Except.ok.inj heq
  exact ⟨⟨.budgetAvailable taskId, reply⟩, by simp, t, hreply, rfl, rfl⟩

theorem budgetStep_safe (w : WorkerConfig) (step : Int) (identical : List Str)
    (found : Option AgentTask) (hk : ∀ t ∈ found, Known h t.taskId t.steeringRevision) :
    Safe Fenced h (budgetStep w step identical found) := by
  cases found with
  | none => exact pauseStep_safe none _ hk
  | some current =>
    rw [budgetStep]
    split
    · exact pauseStep_safe (some current) _ hk
    · exact decide_safe w step identical (hk current rfl)

theorem runStep_safe (w : WorkerConfig) (taskId jobId : Str) (step : Int)
    (identical : List Str) : Safe Fenced h (runStep w taskId jobId step identical) := by
  refine (safe_free rfl).bind fun h₁ found _ => ?_
  cases found with
  | none => exact safe_raise
  | some current =>
    refine (safe_free rfl).bind fun h₂ job _ => ?_
    refine Safe.ite safe_pure (Safe.ite safe_pure ?_)
    refine (safe_free rfl).bind fun h₃ lost _ => Safe.ite safe_raise ?_
    exact (budgetAvailable_conforms taskId).bind
      (fun h₄ found _ hknown => budgetStep_safe w step identical found fun t ht => hknown t (by
        rw [Option.mem_def.1 ht]))
      fun _ _ _ _ => trivial

theorem runSteps_safe (w : WorkerConfig) (taskId jobId : Str) (steps : Nat) (step : Int)
    (identical : List Str) : Safe Fenced h (runSteps w taskId jobId steps step identical) := by
  induction steps generalizing h step identical with
  | zero =>
    refine (getTask_conforms taskId).bind (fun h₁ found _ hknown => ?_) fun _ _ _ _ => trivial
    refine pauseBudget_safe found _ fun t ht => ?_
    obtain rfl : found = some t := ht
    exact hknown t rfl
  | succ steps ih =>
    refine (runStep_safe w taskId jobId step identical).bind fun h₁ outcome _ => ?_
    cases outcome with
    | ended status => exact safe_pure
    | again identical => exact ih (step + 1) identical

end Steps

section Run

variable [PythonText] {h : History Op.Reply}

omit [PythonText] in
theorem failRun_safe (w : WorkerConfig) (taskId : Str) (job : DurableJob) (e : PyError) :
    Safe Fenced h (failRun w taskId job e) := by
  unfold failRun
  split
  · exact safe_raise
  · refine (safe_free rfl).raising.bind fun h₁ _ _ => (safe_free rfl).bind fun h₂ persisted _ => ?_
    change Safe Fenced h₂ (if _ then _ else _)
    split
    · have hop : Fenced h₂ (.workerTransition taskId
          { status := .failed, summary := "The task stopped after bounded worker retries."
            errorCode := some (text e.className) } none) :=
        fenced_transition nofun nofun
      exact (safe_conflict? (safe_perform hop).raising).bind fun _ _ _ => safe_pure
    · exact safe_pure

omit [PythonText] in
theorem closeJob_safe (w : WorkerConfig) (job : DurableJob) (status : RunStatus) :
    Safe Fenced h (closeJob w job status) := by
  unfold closeJob
  split
  · exact (safe_free rfl).raising.bind fun _ _ _ => safe_pure
  · exact (safe_free rfl).raising.bind fun _ _ _ => safe_pure

theorem runClaimed_safe (w : WorkerConfig) (job : DurableJob) :
    Safe Fenced h (runClaimed w job) := by
  refine (safe_free rfl).bind fun _ payload _ => safe_ofExcept.bind fun _ taskId _ =>
    safe_ofExcept.bind fun _ generation _ => (safe_free rfl).raising.bind fun h₁ begun _ => ?_
  cases begun with
  | none => exact closeJob_safe w job .paused
  | some row =>
    have hexecute : Safe Fenced h₁ (executeTask w taskId job.jobId) :=
      (reconcileApprovalEffects_safe taskId).bind fun _ _ _ => runSteps_safe w taskId _ _ _ _
    refine Safe.bind ((hexecute.bind fun _ _ _ => safe_pure).handle fun h₂ e _ =>
      (failRun_safe w taskId job e).bind fun _ _ _ => safe_pure) fun h₃ outcome _ => ?_
    cases outcome with
    | some status => exact closeJob_safe w job status
    | none => exact safe_pure

theorem runClaimedJobs_safe (w : WorkerConfig) (jobs : List DurableJob) :
    Safe Fenced h (runClaimedJobs w jobs) := by
  induction jobs generalizing h with
  | nil => exact safe_pure
  | cons job jobs ih => exact (runClaimed_safe w job).bind fun _ _ _ => ih

/-- The worker keeps the discipline from the start of its run. -/
theorem runOnce_safe (w : WorkerConfig) : Safe Fenced h (runOnce w) :=
  (safe_free rfl).raising.bind fun _ jobs _ => runClaimedJobs_safe w jobs

end Run

end HardyAI.Tasks
