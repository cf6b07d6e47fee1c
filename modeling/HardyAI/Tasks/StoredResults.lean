import HardyAI.Tasks.SteeringFence

/-! What the worker stores of the calls of one message: a tool result for every call that is
handled, and nothing for the calls behind the one that ends the run. -/

open Foundation Foundation.Json Foundation.Program HardyAI.Jobs HardyAI.Skills

namespace HardyAI.Tasks

section Silent

/-- A request that leaves the tool results, the attempts of the job and the failure of the task
alone. -/
def Op.silent : Op → Bool
  | .appendMessage _ | .retryJob .. => false
  | .workerTransition _ a _ => a.status ≠ .failed
  | _ => true

abbrev Silent (_ : History Op.Reply) (op : Op) : Prop := op.silent = true

variable {h : History Op.Reply}

theorem safe_silent {op : Op} (hop : op.silent = true) : Safe Silent h (ask op) :=
  safe_perform hop

theorem silent_conflict? {α : Type} {p : Process α} (hp : Safe Silent h p) :
    Safe Silent h (conflict? p) := by
  refine (hp.bind fun _ _ _ => safe_pure).handle fun h' e _ => ?_
  cases e <;> exact trivial

theorem getActionProposal_silent (proposalId : Str) :
    Safe Silent h (getActionProposal proposalId) :=
  (safe_silent rfl).raising.bind fun _ _ _ => safe_silent rfl

theorem ongoing_silent {p : Process Fields} (hp : Safe Silent h p) :
    Safe Silent h (ongoing p) :=
  hp.bind fun _ _ _ => safe_pure

variable [PythonText]

theorem approvalResult_silent (prepared : PreparedToolCall) (existing : EffectReceipt) :
    Safe Silent h (approvalResult prepared existing) := by
  unfold approvalResult
  split
  · refine safe_ofExcept.bind fun h' proposalId _ => ?_
    have hprior : Safe Silent h' (priorProposal proposalId) :=
      Safe.ite safe_pure (getActionProposal_silent proposalId)
    exact hprior.bind fun _ _ _ => safe_pure
  · refine (safe_silent rfl).bind fun h' reply _ => ?_
    cases reply <;> exact safe_pure

theorem callEffect_silent (a : CallArgs) (logicalId : Str) (prepared : PreparedToolCall) :
    Safe Silent h (callEffect a logicalId prepared) := by
  have hfinish : ∀ {h' : History Op.Reply} state result,
      Safe Silent h' (finishCall a logicalId state result) :=
    fun state result => (safe_silent rfl).raising.bind fun _ _ _ => safe_pure
  refine (safe_silent rfl).raising.bind fun h' existing _ => ?_
  refine Safe.ite safe_pure (Safe.ite ?_ ?_)
  · exact (approvalResult_silent prepared existing).bind fun _ _ _ => hfinish _ _
  · exact (safe_silent rfl).raising.bind fun _ _ _ => safe_ofExcept.bind fun _ _ _ => hfinish _ _

theorem call_silent (a : CallArgs) : Safe Silent h (call a) := by
  refine Safe.ite safe_pure ?_
  refine (safe_silent rfl).raising.bind fun h₁ prepared _ => ?_
  cases prepared with
  | inl refusal => exact safe_pure
  | inr prepared =>
    refine Safe.ite safe_pure (Safe.ite safe_pure ?_)
    refine (silent_conflict? (safe_silent rfl).raising).bind fun h₂ charged _ => ?_
    cases charged with
    | error code => exact safe_pure
    | ok row => exact Safe.ite (callEffect_silent a _ prepared) (safe_silent rfl).raising

variable {task : AgentTask} {arguments : Fields} {r : Int}

theorem bridgeCall_silent (w : WorkerConfig) (ordinal : Int) :
    Safe Silent h (bridgeCall w task arguments r ordinal) := by
  refine Safe.handle ?_ fun h' e _ => Safe.ite safe_pure safe_raise
  exact safe_ofExcept.bind fun _ _ _ => safe_ofExcept.bind fun _ _ _ =>
    safe_ofExcept.bind fun _ _ _ => call_silent _

theorem callCapability_silent (w : WorkerConfig) (ordinal : Int) :
    Safe Silent h (callCapability w task arguments r ordinal) := by
  refine (bridgeCall_silent w ordinal).bind fun h₁ result _ => Safe.ite ?_ safe_pure
  exact safe_ofExcept.bind fun _ _ _ => (safe_silent rfl).raising.bind fun _ _ _ => safe_pure

theorem runPython_silent (w : WorkerConfig) : Safe Silent h (runPython w task arguments r) := by
  refine safe_ofExcept.bind fun _ logicalRunId _ => safe_ofExcept.bind fun _ source _ => ?_
  refine Safe.ite safe_pure ?_
  refine (safe_silent rfl).raising.bind fun h₁ script _ => ?_
  cases script with
  | replay result => exact safe_pure
  | run runId =>
    have hlaunch : Safe Silent h₁ (Program.handle (do
          Program.raising (ask (.openBroker ⟨task, w.agentId, runId, r⟩))
          Program.raising (ask (.launchScript task runId)))
        fun e => .pure (runnerUnavailable e)) :=
      ((safe_silent rfl).raising.bind fun _ _ _ => (safe_silent rfl).raising).handle
        fun _ _ _ => safe_pure
    exact hlaunch.bind fun _ _ _ => (safe_silent rfl).bind fun _ _ _ =>
      safe_ofExcept.bind fun _ _ _ => (safe_silent rfl).raising.bind fun _ _ _ => safe_pure

/-- No tool stores a result of its own, retries the job or fails the task. -/
theorem executeTool_silent (w : WorkerConfig) (c : ToolCall) (ordinal : Int) :
    Safe Silent h (executeTool w task c r ordinal) := by
  have hlookUp : ∀ (what : Lookup) {h' : History Op.Reply}, Safe Silent h' (lookUp w task what) :=
    fun what h' => (safe_silent rfl).raising
  unfold executeTool
  refine Safe.ite ?discover (Safe.ite ?load (Safe.ite ?describe (Safe.ite ?call (Safe.ite ?python
    (Safe.ite ?plan (Safe.ite ?ask (Safe.ite ?preference (Safe.ite ?skill (Safe.ite ?finish
      (ongoing_silent safe_pure))))))))))
  case discover => exact ongoing_silent (safe_ofExcept.bind fun _ _ _ => hlookUp _)
  case load => exact ongoing_silent (safe_ofExcept.bind fun _ _ _ => hlookUp _)
  case describe => exact ongoing_silent (safe_ofExcept.bind fun _ _ _ => hlookUp _)
  case call => exact callCapability_silent w ordinal
  case python => exact ongoing_silent (runPython_silent w)
  case plan =>
    exact ongoing_silent (safe_ofExcept.bind fun _ _ _ => safe_ofExcept.bind fun _ _ _ =>
      (safe_silent rfl).raising.bind fun _ _ _ => safe_pure)
  case ask =>
    exact safe_ofExcept.bind fun _ _ _ => safe_ofExcept.bind fun _ _ _ =>
      (safe_silent rfl).raising.bind fun _ _ _ => safe_pure
  case preference =>
    exact ongoing_silent (safe_ofExcept.bind fun _ _ _ => safe_ofExcept.bind fun _ _ _ =>
      safe_ofExcept.bind fun _ _ _ => safe_ofExcept.bind fun _ _ _ =>
        (safe_silent rfl).raising.bind fun _ _ _ => safe_pure)
  case skill =>
    exact ongoing_silent (safe_ofExcept.bind fun _ _ _ => safe_ofExcept.bind fun _ _ _ =>
      safe_ofExcept.bind fun _ _ _ => safe_ofExcept.bind fun _ _ _ =>
        safe_ofExcept.bind fun _ _ _ => (safe_silent rfl).raising.bind fun _ _ _ => safe_pure)
  case finish =>
    exact safe_ofExcept.bind fun _ _ _ => safe_ofExcept.bind fun _ _ _ =>
      (safe_silent rfl).raising.bind fun _ _ _ => safe_pure

theorem executeCall_silent (w : WorkerConfig) (c : ToolCall) (seen : Nat) (ordinal : Int) :
    Safe Silent h (executeCall w task c seen r ordinal) := by
  refine Safe.ite safe_pure ((silent_conflict? (executeTool_silent w c ordinal)).bind
    fun h₁ outcome _ => ?_)
  cases outcome <;> exact safe_pure

end Silent

section Results

/-- The tool result that an entry of a history has stored. -/
def acceptedResult (e : Sigma Op.Reply) : Option TaskMessage :=
  match e with
  | ⟨.appendMessage m, .ok _⟩ => if m.role = .tool then some m else none
  | _ => none

def acceptedResults (h : History Op.Reply) : List TaskMessage := h.filterMap acceptedResult

def toolMessage (taskId name : Str) (callId : Option Str) (encoded : Str) : TaskMessage :=
  { taskId, role := .tool, content := encoded.take 64000, toolName := some name
    toolCallId := callId }

variable {h h' : History Op.Reply} {m : TaskMessage}

theorem acceptedResults_append : acceptedResults (h ++ h') = acceptedResults h ++ acceptedResults h' :=
  List.filterMap_append

theorem acceptedResults_of_silent (hsilent : ∀ e ∈ h, e.1.silent = true) :
    acceptedResults h = [] := by
  refine List.filterMap_eq_nil_iff.2 fun e he => ?_
  obtain ⟨op, reply⟩ := e
  cases op <;> first | rfl | exact absurd (hsilent _ he) Bool.false_ne_true

/-- What every request of a program satisfies is satisfied by the requests of its runs. -/
theorem forall_of_runs {α : Type} {P : Op → Bool} {p : Process α} {x : Except PyError α}
    (hsafe : Safe (fun _ op => P op = true) [] p) (hrun : Runs p h x) : ∀ e ∈ h, P e.1 = true := by
  intro e he
  obtain ⟨before, behind, rfl⟩ := List.append_of_mem he
  exact hsafe.allowed hrun before e.1 e.2 behind rfl

variable [PythonText]

/-- The name and the identifier under which the result of an executed call is stored. -/
def executedLabel (call : Json) : Except PyError (Str × Option Str) := do
  let c ← ToolCall.ofJson call
  let callId ← textOr (callValue call "id") []
  .ok (if c.name = [] then text "unknown_tool" else c.name, optionalText callId)

/-- The name and the identifier under which a call is reported as interrupted. -/
def interruptedLabel (call : Json) : Except PyError (Str × Option Str) := do
  let name ← toolName call
  let callId ← toolCallId call
  .ok (name, callId)

/-- The message stores this result of the call. -/
def ResultOf (taskId : Str) (label : Except PyError (Str × Option Str)) (result : Fields)
    (m : TaskMessage) : Prop :=
  ∃ name callId encoded, label = .ok (name, callId) ∧ dump true (.obj result) = .ok encoded ∧
    m = toolMessage taskId name callId encoded

/-- A result is stored, or an exception is raised over it. -/
theorem runs_appendToolResult {taskId name : Str} {callId : Option Str} {result : Fields}
    {x : Except PyError Unit} (hrun : Runs (appendToolResult taskId name callId result) h x) :
    (∃ encoded, dump true (.obj result) = .ok encoded ∧ x = .ok () ∧
      h = [⟨.appendMessage (toolMessage taskId name callId encoded), .ok ()⟩]) ∨
    ∃ e, x = .error e ∧ acceptedResults h = [] ∧ ∀ entry ∈ h, ∃ m, entry.1 = .appendMessage m := by
  rcases runs_bind.1 hrun with ⟨encoded, h₁, h₂, rfl, hdump, happend⟩ | ⟨e, hdump, rfl⟩
  · obtain ⟨rfl, hencoded⟩ := runs_ofExcept.1 hdump
    rcases runs_raising.1 happend with hperform | ⟨e, hperform, -⟩
    · obtain ⟨reply, rfl, hreply⟩ := runs_perform.1 hperform
      obtain rfl : x = reply := Except.ok.inj hreply
      cases x with
      | ok value => exact .inl ⟨encoded, hencoded.symm, rfl, rfl⟩
      | error e => exact .inr ⟨e, rfl, rfl, by simp⟩
    · obtain ⟨reply, -, hreply⟩ := runs_perform.1 hperform
      cases hreply
  · obtain ⟨rfl, -⟩ := runs_ofExcept.1 hdump
    exact .inr ⟨e, rfl, rfl, by simp⟩

end Results

section Calls

variable [PythonText] {w : WorkerConfig} {task : AgentTask} {r step index : Int}
  {calls : List Json} {identical : List Str} {h : History Op.Reply}
  {x : Except PyError StepOutcome}

def stillRunning (r : Int) (found : Option AgentTask) : Bool :=
  found.any fun t => t.steeringRevision = r && t.status = .running

/-- The call was executed, and its result is the last thing that was stored. -/
def Stores (w : WorkerConfig) (task : AgentTask) (r : Int) (call : Json) (h : History Op.Reply)
    (m : TaskMessage) (terminal : Option RunStatus) : Prop :=
  ∃ c seen ordinal result h', ToolCall.ofJson call = .ok c ∧
    Runs (executeCall w task c seen r ordinal) h' (.ok (result, terminal)) ∧
    h = h' ++ [⟨.appendMessage m, .ok ()⟩] ∧
    ResultOf task.taskId (executedLabel call) result m

/-- The calls are handled in their order, each with one stored result, up to the first that ends
the run, raises an exception or finds the task steered. -/
inductive Handled (w : WorkerConfig) (task : AgentTask) (r : Int) :
    List Json → History Op.Reply → Except PyError StepOutcome → Prop
  | done (identical : List Str) : Handled w task r [] [] (.ok (.again identical))
  | raised {call : Json} {calls : List Json} {h : History Op.Reply} {e : PyError}
      (hnone : acceptedResults h = []) : Handled w task r (call :: calls) h (.error e)
  | ended {call : Json} {calls : List Json} {h : History Op.Reply} {m : TaskMessage}
      {status : RunStatus} (hcall : Stores w task r call h m (some status)) :
      Handled w task r (call :: calls) h (.ok (.ended status))
  | steered {call : Json} {calls : List Json} {h : History Op.Reply} {m : TaskMessage}
      {found : Option AgentTask} (identical : List Str) (hcall : Stores w task r call h m none)
      (hfound : stillRunning r found = false) :
      Handled w task r (call :: calls) (h ++ [⟨.getTask task.taskId, found⟩])
        (.ok (.again identical))
  | next {call : Json} {calls : List Json} {h rest : History Op.Reply} {m : TaskMessage}
      {found : Option AgentTask} {x : Except PyError StepOutcome}
      (hcall : Stores w task r call h m none) (hfound : stillRunning r found = true)
      (hrest : Handled w task r calls rest x) :
      Handled w task r (call :: calls) (h ++ ⟨.getTask task.taskId, found⟩ :: rest) x

theorem Stores.accepted {call : Json} {m : TaskMessage} {terminal : Option RunStatus}
    (hstores : Stores w task r call h m terminal) : acceptedResults h = [m] := by
  obtain ⟨c, seen, ordinal, result, h', -, hexecute, rfl, name, callId, encoded, -, -, rfl⟩ :=
    hstores
  rw [acceptedResults_append,
    acceptedResults_of_silent (forall_of_runs (executeCall_silent w c seen ordinal) hexecute)]
  rfl

omit [PythonText] in
/-- A value that is read from the call, or the exception that is raised over it. -/
theorem runs_read {α β : Type} {y : Except PyError α} {f : α → Process β} {x : Except PyError β}
    (hrun : Runs ((ofExcept y).bind f) h x) :
    (∃ a, y = .ok a ∧ Runs (f a) h x) ∨ ∃ e, h = [] ∧ x = .error e := by
  cases y with
  | ok a => exact .inl ⟨a, rfl, hrun⟩
  | error e => exact .inr ⟨e, hrun⟩

/-- What follows the stored result of a call. -/
theorem handled_after {call : Json} {m : TaskMessage} {terminal : Option RunStatus}
    {h' : History Op.Reply} (hcall : Stores w task r call h m terminal)
    (hrest : ∀ {rest : History Op.Reply}, Runs (runCalls w task r step (index + 1) calls identical)
      rest x → Handled w task r calls rest x)
    (hrun : Runs (match terminal with
      | some status => Program.pure (.ended status)
      | none => do
        let refreshed ← ask (.getTask task.taskId)
        if refreshed.any fun t => t.steeringRevision = r && t.status = .running then
          runCalls w task r step (index + 1) calls identical
        else Pure.pure (.again identical)) h' x) :
    Handled w task r (call :: calls) (h ++ h') x := by
  cases terminal with
  | some status =>
    obtain ⟨rfl, rfl⟩ := hrun
    simpa using Handled.ended hcall
  | none =>
    rcases runs_bind.1 hrun with ⟨found, h₁, h₂, rfl, hread, hfollow⟩ | ⟨e, hread, rfl⟩
    · obtain ⟨reply, rfl, hreply⟩ := runs_perform.1 hread
      obtain rfl : found = reply := Except.ok.inj hreply
      change Runs (if stillRunning r found then _ else _) h₂ x at hfollow
      cases hfound : stillRunning r found with
      | true =>
        rw [if_pos hfound] at hfollow
        simpa using Handled.next hcall hfound (hrest hfollow)
      | false =>
        rw [if_neg (Bool.eq_false_iff.1 hfound)] at hfollow
        obtain ⟨rfl, rfl⟩ := hfollow
        simpa using Handled.steered identical hcall hfound
    · obtain ⟨reply, -, hreply⟩ := runs_perform.1 hread
      cases hreply

/-- The execution of a call, and what follows it. -/
theorem handled_executed {call : Json} {c : ToolCall} {name : Str} {callId : Option Str}
    {seen : Nat} {ordinal : Int} (hc : ToolCall.ofJson call = .ok c)
    (hlabel : executedLabel call = .ok (name, callId))
    (hrest : ∀ {rest : History Op.Reply}, Runs (runCalls w task r step (index + 1) calls identical)
      rest x → Handled w task r calls rest x)
    (hrun : Runs (do
      let outcome ← executeCall w task c seen r ordinal
      appendToolResult task.taskId name callId outcome.1
      match outcome.2 with
      | some status => Program.pure (.ended status)
      | none => do
        let refreshed ← ask (.getTask task.taskId)
        if refreshed.any fun t => t.steeringRevision = r && t.status = .running then
          runCalls w task r step (index + 1) calls identical
        else Pure.pure (.again identical)) h x) :
    Handled w task r (call :: calls) h x := by
  have hsilent : ∀ {h' : History Op.Reply} {x' : Except PyError (Fields × Option RunStatus)},
      Runs (executeCall w task c seen r ordinal) h' x' → acceptedResults h' = [] :=
    fun hexecute => acceptedResults_of_silent
      (forall_of_runs (executeCall_silent w c seen ordinal) hexecute)
  rcases runs_bind.1 hrun with
    ⟨⟨result, terminal⟩, h₁, h₂, rfl, hexecute, hstore⟩ | ⟨e, herror, rfl⟩
  · rcases runs_bind.1 hstore with ⟨_, h₃, h₄, rfl, happend, hafter⟩ | ⟨e, herror, rfl⟩
    · rcases runs_appendToolResult happend with ⟨encoded, hdump, -, rfl⟩ | ⟨e, he, -⟩
      · have hcall : Stores w task r call
            (h₁ ++ [⟨.appendMessage (toolMessage task.taskId name callId encoded), .ok ()⟩])
            (toolMessage task.taskId name callId encoded) terminal :=
          ⟨c, seen, ordinal, result, h₁, hc, hexecute, rfl, name, callId, encoded, hlabel, hdump,
            rfl⟩
        rw [← List.append_assoc]
        exact handled_after hcall hrest hafter
      · cases he
    · rcases runs_appendToolResult herror with ⟨encoded, -, hok, -⟩ | ⟨e', -, hnone, -⟩
      · cases hok
      · refine .raised ?_
        rw [acceptedResults_append, hsilent hexecute, hnone]
        rfl
  · exact .raised (hsilent herror)

theorem handled_runCalls (hrun : Runs (runCalls w task r step index calls identical) h x) :
    Handled w task r calls h x := by
  induction calls generalizing h index identical with
  | nil =>
    obtain ⟨rfl, rfl⟩ := hrun
    exact .done identical
  | cons call calls ih =>
    rcases runs_read hrun with ⟨c, hc, hrun⟩ | ⟨e, rfl, rfl⟩
    · rcases runs_read hrun with ⟨callId, hid, hrun⟩ | ⟨e, rfl, rfl⟩
      · rcases runs_read hrun with ⟨fingerprint, -, hrun⟩ | ⟨e, rfl, rfl⟩
        · have hlabel : executedLabel call =
              .ok (if c.name = [] then text "unknown_tool" else c.name, optionalText callId) :=
            bind_eq_ok.2 ⟨c, hc, bind_eq_ok.2 ⟨callId, hid, rfl⟩⟩
          exact handled_executed hc hlabel ih hrun
        · exact .raised rfl
      · exact .raised rfl
    · exact .raised rfl

/-- What is stored of the calls that are handled, and how the handling stops. -/
theorem Handled.results (hhandled : Handled w task r calls h x) :
    ∃ handled behind, calls = handled ++ behind ∧
      List.Forall₂ (fun call m => ∃ result, ResultOf task.taskId (executedLabel call) result m)
        handled (acceptedResults h) ∧
      (∀ e, x = .error e → behind ≠ []) ∧
      ∀ outcome, x = .ok outcome → behind = [] ∨ (∃ status, outcome = .ended status) ∨
        ∃ before found, h = before ++ [⟨.getTask task.taskId, found⟩] ∧
          stillRunning r found = false := by
  have hresult : ∀ {call : Json} {h : History Op.Reply} {m : TaskMessage}
      {terminal : Option RunStatus}, Stores w task r call h m terminal →
      ∃ result, ResultOf task.taskId (executedLabel call) result m := by
    rintro call h m terminal ⟨c, seen, ordinal, result, h', -, -, -, hof⟩
    exact ⟨result, hof⟩
  induction hhandled with
  | done identical => exact ⟨[], [], rfl, .nil, nofun, fun _ _ => .inl rfl⟩
  | @raised call calls h e hnone =>
    exact ⟨[], call :: calls, rfl, hnone ▸ .nil, fun _ _ => List.cons_ne_nil _ _, nofun⟩
  | @ended call calls h m status hcall =>
    refine ⟨[call], calls, rfl, ?_, nofun, fun outcome hx => .inr (.inl ⟨status, ?_⟩)⟩
    · rw [hcall.accepted]
      exact .cons (hresult hcall) .nil
    · exact (Except.ok.inj hx).symm
  | @steered call calls h m found identical hcall hfound =>
    refine ⟨[call], calls, rfl, ?_, nofun, fun _ _ => .inr (.inr ⟨h, found, rfl, hfound⟩)⟩
    rw [acceptedResults_append, hcall.accepted]
    exact .cons (hresult hcall) .nil
  | @next call calls h rest m found x hcall hfound hrest ih =>
    obtain ⟨handled, behind, rfl, hforall, herror, hok⟩ := ih
    refine ⟨call :: handled, behind, rfl, ?_, herror, fun outcome hx => ?_⟩
    · rw [acceptedResults_append, hcall.accepted]
      exact .cons (hresult hcall) hforall
    · rcases hok outcome hx with hnil | hended | ⟨before, found', rfl, hsteered⟩
      · exact .inl hnil
      · exact .inr (.inl hended)
      · exact .inr (.inr ⟨h ++ ⟨.getTask task.taskId, found⟩ :: before, found', by simp, hsteered⟩)

end Calls

section Interrupted

variable [PythonText] {taskId : Str} {calls : List Json} {h : History Op.Reply}

/-- The result of a call that the worker does not begin. -/
def steeredResult : Fields :=
  setField (interruptedResult "task_steering_changed") "message"
    (.str "The user redirected or paused the task before this action began.")

/-- Without an exception every call is reported as interrupted, and nothing else is done. -/
theorem runs_interruptCalls {x : Except PyError Unit}
    (hrun : Runs (interruptCalls taskId calls) h x) :
    (∀ entry ∈ h, ∃ m, entry.1 = .appendMessage m) ∧
    ∃ handled behind, calls = handled ++ behind ∧
      List.Forall₂ (fun call m => ResultOf taskId (interruptedLabel call) steeredResult m)
        handled (acceptedResults h) ∧
      (∀ e, x = .error e → behind ≠ []) ∧ (x = .ok () → behind = []) := by
  induction calls generalizing h with
  | nil =>
    obtain ⟨rfl, rfl⟩ := hrun
    exact ⟨by simp, [], [], rfl, .nil, nofun, fun _ => rfl⟩
  | cons call calls ih =>
    have hraised : ∀ (e : PyError), acceptedResults h = [] → x = .error e →
        ∃ handled behind, call :: calls = handled ++ behind ∧
          List.Forall₂ (fun call m => ResultOf taskId (interruptedLabel call) steeredResult m)
            handled (acceptedResults h) ∧
          (∀ e, x = .error e → behind ≠ []) ∧ (x = .ok () → behind = []) := by
      rintro e hnone rfl
      exact ⟨[], call :: calls, rfl, hnone ▸ .nil, fun _ _ => List.cons_ne_nil _ _, nofun⟩
    rcases runs_read hrun with ⟨name, hname, hrun⟩ | ⟨e, rfl, rfl⟩
    · rcases runs_read hrun with ⟨callId, hid, hrun⟩ | ⟨e, rfl, rfl⟩
      · have hlabel : interruptedLabel call = .ok (name, callId) :=
          bind_eq_ok.2 ⟨name, hname, bind_eq_ok.2 ⟨callId, hid, rfl⟩⟩
        rcases runs_bind.1 hrun with ⟨_, h₁, h₂, rfl, happend, hrest⟩ | ⟨e, herror, rfl⟩
        · rcases runs_appendToolResult happend with ⟨encoded, hdump, -, rfl⟩ | ⟨e, he, -⟩
          · obtain ⟨hops, handled, behind, rfl, hforall, herror, hok⟩ := ih hrest
            refine ⟨?_, call :: handled, behind, rfl, ?_, herror, hok⟩
            · simpa using hops
            · exact .cons ⟨name, callId, encoded, hlabel, hdump, rfl⟩ hforall
          · cases he
        · rcases runs_appendToolResult herror with ⟨encoded, -, hok, -⟩ | ⟨e', -, hnone, hops⟩
          · cases hok
          · exact ⟨hops, hraised e hnone rfl⟩
      · exact ⟨by simp, hraised e rfl rfl⟩
    · exact ⟨by simp, hraised e rfl rfl⟩

end Interrupted

section Caught

variable {h : History Op.Reply}

theorem conflict?_raises {α : Type} {p : Process α} {e : PyError}
    (hrun : Runs (conflict? p) h (.error e)) (message : String) :
    e ≠ .taskConflictError message := by
  rcases runs_handle hrun with ⟨a, -, ha⟩ | ⟨e', h₁, h₂, -, -, hcaught⟩
  · cases ha
  · rintro rfl
    cases e' <;> cases hcaught.2

variable [PythonText] {w : WorkerConfig} {task : AgentTask} {r : Int}

/-- No conflict of a tool escapes. -/
theorem executeCall_raises {c : ToolCall} {seen : Nat} {ordinal : Int} {e : PyError}
    (hrun : Runs (executeCall w task c seen r ordinal) h (.error e)) (message : String) :
    e ≠ .taskConflictError message := by
  unfold executeCall at hrun
  split at hrun
  · cases hrun.2
  · rcases runs_bind.1 hrun with ⟨outcome, h₁, h₂, -, -, hafter⟩ | ⟨e', hconflict, he⟩
    · cases outcome <;> cases hafter.2
    · obtain rfl := Except.error.inj he
      exact conflict?_raises hconflict message

/-- No bad value of a capability call escapes. -/
theorem bridgeCall_raises {arguments : Fields} {ordinal : Int} {e : PyError}
    (hrun : Runs (bridgeCall w task arguments r ordinal) h (.error e)) : e.isValueError = false := by
  rcases runs_handle hrun with ⟨a, -, ha⟩ | ⟨e', h₁, h₂, -, -, hcaught⟩
  · cases ha
  · change Runs (if e'.isValueError = true then _ else _) h₂ _ at hcaught
    cases he : e'.isValueError with
    | true =>
      rw [if_pos he] at hcaught
      cases hcaught.2
    | false =>
      rw [if_neg (Bool.eq_false_iff.1 he)] at hcaught
      obtain rfl := Except.error.inj hcaught.2
      exact he

def taskTools : List Str :=
  ["discover_capabilities", "load_skill", "describe_capability", "call_capability", "run_python",
    "update_plan", "ask_user", "save_preference", "save_skill", "finish_task"]

/-- A name that is no tool has an error as its result. -/
theorem executeCall_unknown {c : ToolCall} {seen : Nat} {ordinal : Int}
    {x : Except PyError (Fields × Option RunStatus)} (hname : c.name ∉ taskTools)
    (hrun : Runs (executeCall w task c seen r ordinal) h x) :
    h = [] ∧ ∃ result, x = .ok (result, none) ∧ lookup result "status" = some (.str "error") := by
  unfold executeCall at hrun
  split at hrun
  · obtain ⟨rfl, rfl⟩ := hrun
    exact ⟨rfl, _, rfl, rfl⟩
  · have htool : executeTool w task c r ordinal =
        .pure (errorResult "task_tool_unknown", none) := by
      simp only [taskTools, List.mem_cons, List.not_mem_nil, or_false, not_or] at hname
      simp [executeTool, hname, ongoing]
      rfl
    rw [htool] at hrun
    obtain ⟨rfl, rfl⟩ := hrun
    exact ⟨rfl, _, rfl, rfl⟩

end Caught

section Reply

variable [PythonText] {h : History Op.Reply} {task : AgentTask} {r : Int}

/-- A request that neither retries the job nor fails the task. -/
def Op.keepsJob : Op → Bool
  | .retryJob .. => false
  | .workerTransition _ a _ => a.status ≠ .failed
  | _ => true

abbrev KeepsJob (_ : History Op.Reply) (op : Op) : Prop := op.keepsJob = true

omit [PythonText] in
theorem keepsJob_of_silent {op : Op} (hop : op.silent = true) : op.keepsJob = true := by
  cases op <;> first | rfl | exact hop

theorem appendToolResult_keepsJob (taskId name : Str) (callId : Option Str) (result : Fields) :
    Safe KeepsJob h (appendToolResult taskId name callId result) :=
  safe_ofExcept.bind fun _ _ _ => (safe_perform rfl).raising

theorem interruptCalls_keepsJob (taskId : Str) (calls : List Json) :
    Safe KeepsJob h (interruptCalls taskId calls) := by
  induction calls generalizing h with
  | nil => exact safe_pure
  | cons call calls ih =>
    exact safe_ofExcept.bind fun _ _ _ => safe_ofExcept.bind fun _ _ _ =>
      (appendToolResult_keepsJob taskId _ _ _).bind fun _ _ _ => ih

theorem runCalls_keepsJob (w : WorkerConfig) (step index : Int) (calls : List Json)
    (identical : List Str) : Safe KeepsJob h (runCalls w task r step index calls identical) := by
  induction calls generalizing h index identical with
  | nil => exact safe_pure
  | cons call calls ih =>
    refine safe_ofExcept.bind fun _ c _ => safe_ofExcept.bind fun _ callId _ =>
      safe_ofExcept.bind fun h₁ fingerprint _ => ?_
    have hexecute : Safe KeepsJob h₁ (executeCall w task c
        ((fingerprint :: identical).count fingerprint) r (step * 100 + index)) :=
      (executeCall_silent w c _ _).mono fun _ _ hop => keepsJob_of_silent hop
    refine hexecute.bind fun _ outcome _ =>
      (appendToolResult_keepsJob _ _ _ _).bind fun _ _ _ => ?_
    obtain ⟨result, terminal⟩ := outcome
    cases terminal with
    | some status => exact safe_pure
    | none => exact (safe_perform rfl).bind fun _ refreshed _ => Safe.ite (ih _ _) safe_pure

/-- Following a reply with calls neither retries the job nor fails the task. -/
theorem followReply_keepsJob (w : WorkerConfig) (step : Int) (identical : List Str)
    {reply : ModelReply} (hcalls : reply.calls ≠ []) :
    Safe KeepsJob h (followReply w task r step identical reply) := by
  unfold followReply
  rw [if_neg hcalls]
  refine (safe_perform rfl).bind fun _ boundary _ => Safe.ite ?_ ?_
  · exact runCalls_keepsJob w step 1 _ identical
  · exact (interruptCalls_keepsJob _ _).bind fun _ _ _ => safe_pure

/-- The reply is followed for the task as it is found. -/
theorem runs_followReply {w : WorkerConfig} {step : Int} {identical : List Str}
    {reply : ModelReply} {x : Except PyError StepOutcome} (hcalls : reply.calls ≠ [])
    (hrun : Runs (followReply w task r step identical reply) h x) :
    ∃ found rest, h = ⟨.getTask task.taskId, found⟩ :: rest ∧
      ((stillRunning r found = true ∧
          Runs (runCalls w task r step 1 reply.calls identical) rest x) ∨
        (stillRunning r found = false ∧ ∃ y, Runs (interruptCalls task.taskId reply.calls) rest y ∧
          x = y.map fun _ => .again identical)) := by
  unfold followReply at hrun
  rw [if_neg hcalls] at hrun
  obtain ⟨found, rest, rfl, hfollow⟩ := hrun
  refine ⟨found, rest, rfl, ?_⟩
  have hboundary : (found.any fun t => t.status = .running && t.steeringRevision = r) =
      stillRunning r found := by
    simp only [stillRunning, Bool.and_comm]
  change Runs (if (found.any fun t => t.status = .running && t.steeringRevision = r) = true then _
    else _) rest x at hfollow
  rw [hboundary] at hfollow
  cases hfound : stillRunning r found with
  | true =>
    rw [if_pos hfound] at hfollow
    exact .inl ⟨rfl, hfollow⟩
  | false =>
    rw [if_neg (Bool.eq_false_iff.1 hfound)] at hfollow
    rcases runs_bind.1 hfollow with ⟨_, h₁, h₂, rfl, hfirst, hagain⟩ | ⟨e, herror, rfl⟩
    · obtain ⟨rfl, rfl⟩ := hagain
      exact .inr ⟨rfl, .ok (), by simpa using hfirst, rfl⟩
    · exact .inr ⟨rfl, .error e, herror, rfl⟩

def callLabel (running : Bool) (call : Json) : Except PyError (Str × Option Str) :=
  if running then executedLabel call else interruptedLabel call

/-- However the stores, the executor and the owner reply, a call that is handled has one stored
result, and the calls behind an exception, the end of the run or a steering have none. -/
theorem followReply_results (w : WorkerConfig) (task : AgentTask) (r step : Int)
    (identical : List Str) (reply : ModelReply) {h : History Op.Reply}
    {x : Except PyError StepOutcome} (hcalls : reply.calls ≠ [])
    (hrun : Runs (followReply w task r step identical reply) h x) :
    (∃ found rest, h = ⟨.getTask task.taskId, found⟩ :: rest ∧
      (stillRunning r found = true → Handled w task r reply.calls rest x) ∧
      (stillRunning r found = false → (∀ entry ∈ rest, ∃ m, entry.1 = .appendMessage m) ∧
        ∀ outcome, x = .ok outcome → outcome = .again identical) ∧
      ∃ handled behind, reply.calls = handled ++ behind ∧
        List.Forall₂ (fun call m => ∃ result,
            ResultOf task.taskId (callLabel (stillRunning r found) call) result m ∧
            (stillRunning r found = false → result = steeredResult))
          handled (acceptedResults h) ∧
        (∀ e, x = .error e → behind ≠ []) ∧
        ∀ outcome, x = .ok outcome → behind = [] ∨ stillRunning r found = true ∧
          ((∃ status, outcome = .ended status) ∨ ∃ before found',
            h = before ++ [⟨.getTask task.taskId, found'⟩] ∧ stillRunning r found' = false)) ∧
    (∀ entry ∈ h, entry.1.keepsJob = true) ∧
    (∀ c seen ordinal h' e, Runs (executeCall w task c seen r ordinal) h' (.error e) →
      ∀ message, e ≠ .taskConflictError message) ∧
    (∀ arguments ordinal h' e, Runs (bridgeCall w task arguments r ordinal) h' (.error e) →
      e.isValueError = false) ∧
    ∀ c seen ordinal h' x', c.name ∉ taskTools →
      Runs (executeCall w task c seen r ordinal) h' x' →
      h' = [] ∧ ∃ result, x' = .ok (result, none) ∧ lookup result "status" = some (.str "error") := by
  refine ⟨?_, fun entry hentry => ?_, fun c seen ordinal h' e hraise => executeCall_raises hraise,
    fun arguments ordinal h' e hraise => bridgeCall_raises hraise,
    fun c seen ordinal h' x' hname hexecute => executeCall_unknown hname hexecute⟩
  · obtain ⟨found, rest, rfl, hfollow⟩ := runs_followReply hcalls hrun
    refine ⟨found, rest, rfl, ?_⟩
    have haccepted : acceptedResults (⟨.getTask task.taskId, found⟩ :: rest) =
      acceptedResults rest := rfl
    rw [haccepted]
    rcases hfollow with ⟨hfound, hexecute⟩ | ⟨hfound, y, hinterrupt, rfl⟩
    · have hhandled := handled_runCalls hexecute
      obtain ⟨handled, behind, hsplit, hforall, herror, hok⟩ := hhandled.results
      refine ⟨fun _ => hhandled, fun hnot => absurd (hfound.symm.trans hnot) (by simp), handled,
        behind, hsplit, hforall.imp ?_, herror, fun outcome hx => ?_⟩
      · rintro call m ⟨result, hof⟩
        exact ⟨result, by rwa [hfound], fun hnot => absurd (hfound.symm.trans hnot) (by simp)⟩
      · rcases hok outcome hx with hnil | hended | ⟨before, found', rfl, hsteered⟩
        · exact .inl hnil
        · exact .inr ⟨hfound, .inl hended⟩
        · exact .inr ⟨hfound, .inr ⟨⟨.getTask task.taskId, found⟩ :: before, found', rfl, hsteered⟩⟩
    · obtain ⟨hops, handled, behind, hsplit, hforall, herror, hok⟩ := runs_interruptCalls hinterrupt
      refine ⟨fun hyes => absurd (hyes.symm.trans hfound) (by simp), fun _ => ⟨hops, ?_⟩, handled,
        behind, hsplit, hforall.imp ?_, ?_, ?_⟩
      · rintro outcome hx
        cases y with
        | ok value => exact (Except.ok.inj hx).symm
        | error e => cases hx
      · rintro call m hof
        exact ⟨steeredResult, by rwa [hfound], fun _ => rfl⟩
      · rintro e hx
        cases y with
        | ok value => cases hx
        | error e' => exact herror e' rfl
      · rintro outcome hx
        cases y with
        | ok value => exact .inl (hok rfl)
        | error e => cases hx
  · exact forall_of_runs (followReply_keepsJob w step identical hcalls) hrun entry hentry

end Reply

section Sample

/-- No exception escapes, and every call has exactly one stored result. -/
def AllStored [PythonText] (task : AgentTask) (reply : ModelReply) (h : History Op.Reply)
    (x : Except PyError StepOutcome) : Prop :=
  (∃ outcome, x = .ok outcome) ∧
    List.Forall₂ (fun call m => ∃ running result,
      ResultOf task.taskId (callLabel running call) result m) reply.calls (acceptedResults h)

/-- The stores while the worker runs the task. -/
def runningStore : Store :=
  (@systemAfter asciiText (queuedRun ++ List.replicate 3 (.step 0 answerEnv))).state

def writtenCall (name : Str) (arguments : Fields) : Json :=
  .obj [("function", .obj [("name", .str name), ("arguments", .obj arguments)])]

/-- A message that goes on behind the call that ends the run. -/
def finishThenPlan : ModelReply where
  content := []
  toolCalls := some [writtenCall "finish_task" [("result", .str "Done.")],
    writtenCall "update_plan" [("plan_markdown", .str "Rest.")]]
  elapsed := 1000000

/-- A preference with a scope that is none of the three. -/
def badPreference : ModelReply where
  content := []
  toolCalls := some [writtenCall "save_preference"
    [("scope", .str "everywhere"), ("rule_text", .str "Be brief.")]]
  elapsed := 1000000

/-- The reply is followed against the stores. -/
def followedSample (t : AgentTask) (reply : ModelReply) :
    History Op.Reply × Except PyError StepOutcome :=
  answered (fun op => (@exec asciiText answerEnv op runningStore).1)
    (@followReply asciiText (sampleWorker "a") t 0 1 [] reply)

/-- What becomes of the two messages. -/
def sampleOutcome (t : AgentTask) : Bool :=
  t.status = .running && t.steeringRevision = 0 &&
  (match (followedSample t finishThenPlan).2 with | .ok _ => true | .error _ => false) &&
  (acceptedResults (followedSample t finishThenPlan).1).length = 1 &&
  match (followedSample t badPreference).2 with
  | .ok _ => false
  | .error e => e = .valueError "preference_scope_invalid"

theorem samples_followed :
    ∃ t, runningStore.tasks.task? "t1" = some t ∧ t.status = .running ∧ t.steeringRevision = 0 ∧
      (∃ outcome, (followedSample t finishThenPlan).2 = .ok outcome) ∧
      (acceptedResults (followedSample t finishThenPlan).1).length = 1 ∧
      (followedSample t badPreference).2 = .error (.valueError "preference_scope_invalid") := by
  have hchecked : (runningStore.tasks.task? "t1").any sampleOutcome = true := by decide +kernel
  obtain ⟨t, ht, hall⟩ := (Option.any_eq_true _ _).1 hchecked
  simp only [sampleOutcome, Bool.and_eq_true, decide_eq_true_eq] at hall
  obtain ⟨⟨⟨⟨hrunning, hrevision⟩, hends⟩, hone⟩, hraised⟩ := hall
  refine ⟨t, ht, hrunning, hrevision, ?_, hone, ?_⟩
  · split at hends
    · exact ⟨_, by assumption⟩
    · cases hends
  · split at hraised
    · cases hraised
    · next e he => rw [he, of_decide_eq_true hraised]

theorem followReply_results_finishThenPlan :
    ∃ handled behind, finishThenPlan.calls = handled ++ behind ∧ handled.length = 1 := by
  obtain ⟨t, -, -, -, -, hone, -⟩ := samples_followed
  obtain ⟨⟨found, rest, -, -, -, handled, behind, hsplit, hforall, -⟩, -⟩ :=
    @followReply_results asciiText (sampleWorker "a") t 0 1 [] finishThenPlan _ _ (by decide)
      (runs_answered (fun op => (@exec asciiText answerEnv op runningStore).1) _)
  exact ⟨handled, behind, hsplit, hforall.length_eq.trans hone⟩

theorem finishThenPlan_unstored :
    ∃ t, runningStore.tasks.task? "t1" = some t ∧ t.status = .running ∧ t.steeringRevision = 0 ∧
      (∃ h x, Runs (@followReply asciiText (sampleWorker "a") t 0 1 [] finishThenPlan) h x ∧
        (∃ outcome, x = .ok outcome) ∧ ¬ @AllStored asciiText t finishThenPlan h x) ∧
      ∃ h, Runs (@followReply asciiText (sampleWorker "a") t 0 1 [] badPreference) h
          (.error (.valueError "preference_scope_invalid")) ∧
        ¬ @AllStored asciiText t badPreference h
          (.error (.valueError "preference_scope_invalid")) := by
  obtain ⟨t, ht, hrunning, hrevision, hends, hone, herror⟩ := samples_followed
  refine ⟨t, ht, hrunning, hrevision,
    ⟨(followedSample t finishThenPlan).1, (followedSample t finishThenPlan).2,
      runs_answered _ _, hends, ?_⟩, (followedSample t badPreference).1, ?_, ?_⟩
  · rintro ⟨-, hresults⟩
    have hlength := hresults.length_eq
    rw [hone] at hlength
    exact absurd hlength (by decide)
  · have hrun : Runs _ (followedSample t badPreference).1 (followedSample t badPreference).2 :=
      runs_answered _ _
    rwa [herror] at hrun
  · rintro ⟨⟨outcome, hok⟩, -⟩
    cases hok

end Sample

end HardyAI.Tasks
