import HardyAI.Tasks.WorkerFence

/-! The steering fence: owner commands and the steps of any number of workers interleave, and
what a worker writes at a revision has seen every command that committed before it. -/

open Foundation Foundation.Json Foundation.Machine Foundation.Trace HardyAI.Jobs HardyAI.Reviews

namespace HardyAI.Tasks

section System

variable [PythonText]

/-- Workers, each with the brokers of its scripts, over the two stores. -/
def taskMachine : Machine Store Op Env Outside Bool WorkerConfig BrokerRun Op.Reply where
  exec := exec
  outside := act
  program := runOnce
  spawns
    | .openBroker run => some run
    | _ => none
  child run := broker run brokerMaxCalls 0

abbrev Event := Machine.Event Env Outside WorkerConfig
abbrev Entry := Machine.Entry Outside Bool Op.Reply
abbrev System := Machine.System Store Outside Bool Op.Reply

def systemAfter (es : List Event) : System := run taskMachine.step (Machine.start .empty) es

end System

section Entries

/-- The worker has read the task at the revision. -/
def ReadBy (worker : Nat) (taskId : Str) (r : Int) : Entry → Prop
  | .ran w op reply => w = worker ∧ Reads taskId r ⟨op, reply⟩
  | .outside _ _ => False

/-- The model has decided for the worker on the task. -/
def DecidedBy (worker : Nat) (taskId : Str) : Entry → Prop
  | .ran w op reply => w = worker ∧ Decides taskId ⟨op, reply⟩
  | .outside _ _ => False

/-- A command of the owner on the task has committed. -/
def CommandOn (taskId : Str) : Entry → Prop
  | .outside (.owner c _) committed => committed = true ∧ c.taskId = taskId
  | _ => False

end Entries

section Watch

variable [PythonText] {s : System} {P : TransitionArgs → Prop} {t t' : AgentTask}

/-- The task has moved on from the revision, or is closed. -/
def Passed (db : TaskDb) (taskId : Str) (r : Int) (commanded : Prop) : Prop :=
  ∃ t, db.task? taskId = some t ∧ r ≤ t.steeringRevision ∧
    (commanded → r < t.steeringRevision ∨ t.status.terminal = true)

omit [PythonText] in
theorem Passed.step {Q : Str → TransitionArgs → Prop} {db db' : TaskDb} {taskId : Str} {r : Int}
    {c c' : Prop} (h : Passed db taskId r c) (hrows : RowSteps Q db db')
    (hc : c' → c ∨ Commanded db db' taskId) : Passed db' taskId r c' := by
  obtain ⟨t, ht, hle, hpassed⟩ := h
  obtain ⟨t', ht', hstep⟩ := hrows taskId t ht
  have hmono := hstep.steering_le
  refine ⟨t', ht', hle.trans hmono, fun hcommand => ?_⟩
  rcases hc hcommand with hc | ⟨u, u', hu, hu', hmoved⟩
  · rcases hpassed hc with hlt | hterminal
    · exact .inl (hlt.trans_le hmono)
    · exact .inr (hstep.eq_of_terminal hterminal ▸ hterminal)
  · obtain rfl : t = u := Option.some.inj (ht.symm.trans hu)
    obtain rfl : t' = u' := Option.some.inj (ht'.symm.trans hu')
    rcases hmoved with hmoved | hterminal
    · exact .inl (by omega)
    · exact .inr hterminal

/-- Every revision that was ever read is passed once a command has committed since. -/
def Watched (s : System) : Prop :=
  ∀ a e b, s.log = a ++ e :: b → ∀ worker taskId r, ReadBy worker taskId r e →
    Passed s.state.tasks taskId r (∃ c ∈ b, CommandOn taskId c)

/-- A read returns the row that the store holds. -/
theorem passed_of_read {env : Env} {op : Op} {store : Store} {worker : Nat} {taskId : Str} {r : Int}
    (h : ReadBy worker taskId r (.ran worker op (exec env op store).1)) :
    Passed (exec env op store).2.tasks taskId r False := by
  have hrow : ∀ k t, store.tasks.task? k = some t → t.taskId = taskId → t.steeringRevision = r →
      Passed store.tasks taskId r False := by
    intro k t ht hk hr
    have hkey : t.taskId = k := Table.key_of_find? ht
    exact ⟨t, by rw [← hk, hkey, ht], hr.ge, False.elim⟩
  obtain ⟨-, hread⟩ := h
  cases op with
  | getTask k =>
    obtain ⟨t, ht, hk, hr⟩ := hread
    exact hrow k t ht hk hr
  | budgetAvailable k =>
    obtain ⟨t, ht, hk, hr⟩ := hread
    exact hrow k t ht hk hr
  | _ => exact hread.elim

theorem commanded_of_entry {o : Outside} {store : Store} {taskId : Str}
    (h : CommandOn taskId (.outside o (act o store).1)) :
    Commanded store.tasks (act o store).2.tasks taskId := by
  cases o with
  | owner c now =>
    obtain ⟨hcommitted, rfl⟩ := h
    exact owner_commanded (of_decide_eq_true hcommitted)
  | _ => exact h.elim

/-- A step appends at most one entry, and moves the tasks as `RowSteps` says. -/
theorem step_watched (s : System) (e : Event) (h : Watched s) :
    Watched (taskMachine.step s e) := by
  have hextend : ∀ (x : Entry) (state : Store), RowSteps (fun _ _ => True) s.state.tasks state.tasks →
      (∀ worker taskId r, ReadBy worker taskId r x → Passed state.tasks taskId r False) →
      (∀ taskId, CommandOn taskId x → Commanded s.state.tasks state.tasks taskId) →
      ∀ a y b, s.log ++ [x] = a ++ y :: b → ∀ worker taskId r, ReadBy worker taskId r y →
        Passed state.tasks taskId r (∃ c ∈ b, CommandOn taskId c) := by
    intro x state hrows hread hcommand a y b hsplit worker taskId r hy
    obtain ⟨rfl, rfl, rfl⟩ | ⟨b', rfl, hlog⟩ := concat_eq_append_cons hsplit
    · obtain ⟨t, ht, hle, -⟩ := hread worker taskId r hy
      exact ⟨t, ht, hle, by simp⟩
    · refine (h a y b' hlog worker taskId r hy).step hrows ?_
      rintro ⟨c, hc, hon⟩
      rcases List.mem_append.1 hc with hc | hc
      · exact .inl ⟨c, hc, hon⟩
      · obtain rfl := List.mem_singleton.1 hc
        exact .inr (hcommand taskId hon)
  rcases step_cases (M := taskMachine) s e with
    ⟨i, env, worker, history, op, -, -, hstate, hlog⟩ | ⟨o, -, hstate, hlog⟩ |
      ⟨-, hstate, hlog⟩
  · intro a y b hsplit w taskId r hy
    rw [hstate]
    refine hextend _ _ (exec_rows env op s.state fun _ _ _ _ => trivial) ?_ ?_ a y b
      (hlog ▸ hsplit) w taskId r hy
    · intro w' taskId r hread
      obtain rfl : worker = w' := hread.1
      exact passed_of_read hread
    · exact fun taskId hon => False.elim hon
  · intro a y b hsplit w taskId r hy
    rw [hstate]
    exact hextend (.outside o (act o s.state).1) _ (act_rows o)
      (fun _ _ _ hread => False.elim hread) (fun taskId hon => commanded_of_entry hon) a y b
      (hlog ▸ hsplit) w taskId r hy
  · intro a y b hsplit w taskId r hy
    rw [hstate]
    exact h a y b (hlog ▸ hsplit) w taskId r hy

theorem reachable_watched (es : List Event) : Watched (systemAfter es) := by
  have hstep : ∀ s e, Watched s → Watched (taskMachine.step s e) := step_watched
  refine run_invariant hstep ?_ es
  intro a e b hsplit
  simp [Machine.start] at hsplit

theorem reachable_follows (es : List Event) :
    ∀ t ∈ (systemAfter es).threads, Follows Fenced (systemAfter es).log t :=
  run_follows (M := taskMachine) (fun w => runOnce_safe w) (fun _ _ run _ _ _ => broker_safe run _ _)
    .empty es

end Watch

section Completion

variable {P : TransitionArgs → Prop} {t t' : AgentTask}

/-- A task becomes completed by a transition alone. -/
theorem RowStep.completed (h : RowStep P t t') (ht : t.status ≠ .completed)
    (ht' : t'.status = .completed) : ∃ a, P a ∧ a.status = .completed := by
  cases h with
  | kept => exact absurd ht' ht
  | steered now hopen =>
    by_cases hrequeue : requeues t.status = true
    · simp [steer, hrequeue] at ht'
    · simp [steer, hrequeue, ht] at ht'
  | ownerMoved status now hopen hstatus =>
    have hcompleted : status = .completed := ht'
    rcases hstatus with rfl | rfl <;> simp at hcompleted
  | resumed seconds decisions calls now hresumable => exact absurd ht' (by simp [resume])
  | activated jobId now hqueued => exact absurd ht' ht
  | advanced now hqueued => exact absurd ht' ht
  | bound workspaceRef now hqueued => exact absurd ht' ht
  | begun jobId now hstatus hactive => exact absurd ht' (by simp [startRun])
  | planned plan summary now hrunning => exact absurd ht' ht
  | charged seconds decisions calls now hrunning hdecisions hcalls => exact absurd ht' ht
  | moved a now ha hrunning => exact ⟨a, ha, ht'⟩

end Completion

section Fence

variable [PythonText]

/-- No command on the task has committed since any of the worker's reads of the revision. -/
def Unsteered (log : List Entry) (worker : Nat) (taskId : Str) (r : Int) : Prop :=
  (∃ e ∈ log, ReadBy worker taskId r e) ∧
    ∀ a e b, log = a ++ e :: b → ReadBy worker taskId r e → ∀ c ∈ b, ¬ CommandOn taskId c

omit [PythonText] in
theorem Watched.unsteered {s : System} {worker : Nat} {taskId : Str} {r : Int} {t : AgentTask}
    (h : Watched s) (ht : s.state.tasks.task? taskId = some t) (hrunning : t.status = .running)
    (hr : t.steeringRevision = r) (hread : ∃ e ∈ s.log, ReadBy worker taskId r e) :
    Unsteered s.log worker taskId r := by
  refine ⟨hread, fun a e b hsplit hby c hc hon => ?_⟩
  obtain ⟨t', ht', -, hpassed⟩ := h a e b hsplit worker taskId r hby
  obtain rfl : t = t' := Option.some.inj (ht.symm.trans ht')
  rcases hpassed ⟨c, hc, hon⟩ with hlt | hterminal
  · omega
  · simp [hrunning, TaskStatus.terminal] at hterminal

/-- A write that takes effect finds the task running and unsteered. -/
theorem unsteered_of_tookEffect (es : List Event) {i : Nat} {env : Env} {worker : Nat}
    {history : History Op.Reply} {op : Op} {taskId : Str} {r : Int}
    (hpending : pending? (systemAfter es) i = some (worker, history, op))
    (hfence : op.fence = some (taskId, r))
    (htook : op.tookEffect (exec env op (systemAfter es).state).1 = true) :
    (∃ t, (systemAfter es).state.tasks.task? taskId = some t ∧ t.status = .running ∧
      t.steeringRevision = r) ∧ Unsteered (systemAfter es).log worker taskId r := by
  obtain ⟨t, ht, hrunning⟩ := fence_of_tookEffect hfence htook
  obtain ⟨hstatus, hr⟩ := runningAt_iff.1 hrunning
  have hrevision : t.steeringRevision = r := hr r rfl
  obtain ⟨hallowed, hlogged⟩ := Follows.allowed (reachable_follows es) hpending
  obtain ⟨e, he, hreads⟩ := hallowed.known taskId r hfence
  have hread : ∃ e ∈ (systemAfter es).log, ReadBy worker taskId r e :=
    ⟨_, hlogged.subset (List.mem_map_of_mem he), rfl, hreads⟩
  exact ⟨⟨t, ht, hstatus, hrevision⟩,
    (reachable_watched es).unsteered ht hstatus hrevision hread⟩

/-- The worker's last decision on the task has seen every command of the owner. -/
def DecidedUnsteered (log : List Entry) (worker : Nat) (taskId : Str) : Prop :=
  ∃ front d back, log = front ++ d :: back ∧ DecidedBy worker taskId d ∧
    ∀ c ∈ back, ¬ DecidedBy worker taskId c ∧ ¬ CommandOn taskId c

omit [PythonText] in
theorem Unsteered.decided {log : List Entry} {worker : Nat} {taskId : Str} {r : Int}
    {history : History Op.Reply} (h : Unsteered log worker taskId r)
    (hlogged : List.Sublist (history.map fun e => Entry.ran worker e.1 e.2) log)
    (hdecided : Decided history taskId r) : DecidedUnsteered log worker taskId := by
  obtain ⟨h₁, e, h₂, rfl, hread, d, hd, hdecides⟩ := hdecided
  rw [List.map_append, List.map_cons] at hlogged
  obtain ⟨a, b, rfl, hsub⟩ := exists_split_of_sublist hlogged
  have hlater : ∃ d ∈ b, DecidedBy worker taskId d :=
    ⟨_, hsub.subset (List.mem_map_of_mem hd), rfl, hdecides⟩
  obtain ⟨mid, d', back, rfl, hd', hlast⟩ := exists_last hlater
  refine ⟨a ++ .ran worker e.1 e.2 :: mid, d', back, by simp, hd', fun c hc => ⟨hlast c hc, ?_⟩⟩
  exact h.2 a _ _ rfl ⟨rfl, hread⟩ c (by simp [hc])

/-- A request that completes a task is a transition to completed. -/
theorem completes_of_exec {env : Env} {op : Op} {s : Store} {taskId : Str} {t t' : AgentTask}
    (ht : s.tasks.task? taskId = some t) (ht' : (exec env op s).2.tasks.task? taskId = some t')
    (hbefore : t.status ≠ .completed) (hafter : t'.status = .completed) :
    ∃ a expected, op = .workerTransition taskId a expected ∧ a.status = .completed := by
  have hrows := exec_rows (Q := fun k a => ∃ expected, op = .workerTransition k a expected) env op s
    fun k a expected hop => ⟨expected, hop⟩
  obtain ⟨t'', ht'', hstep⟩ := hrows taskId t ht
  obtain rfl : t' = t'' := Option.some.inj (ht'.symm.trans ht'')
  obtain ⟨a, ⟨expected, hop⟩, ha⟩ := hstep.completed hbefore hafter
  exact ⟨a, expected, hop, ha⟩

/-- A transition that changes the row of the task has committed. -/
theorem tookEffect_of_moved {env : Env} {s : Store} {taskId : Str} {a : TransitionArgs}
    {expected : Option Int} {t t' : AgentTask} (ht : s.tasks.task? taskId = some t)
    (ht' : (exec env (.workerTransition taskId a expected) s).2.tasks.task? taskId = some t')
    (hne : t.status ≠ t'.status) :
    (Op.workerTransition taskId a expected).tookEffect
      (exec env (.workerTransition taskId a expected) s).1 = true := by
  have hreply : ∀ e, workerTransition taskId a expected env.now s.tasks ≠ .error e := by
    intro e he
    have hsame : t' = t := by
      have hrow : ((workerTransition taskId a expected env.now).commit s.tasks).task? taskId =
          some t' := ht'
      rw [Transaction.commit_of_error he, ht] at hrow
      exact (Option.some.inj hrow).symm
    exact hne (congrArg AgentTask.status hsame.symm)
  have hok : ((workerTransition taskId a expected env.now).reply s.tasks).isOk = true := by
    cases hrun : workerTransition taskId a expected env.now s.tasks with
    | error e => exact absurd hrun (hreply e)
    | ok reply => simp [Transaction.reply, hrun, Except.map, Except.isOk, Except.toBool]
  exact hok

/-- In every interleaving of the commands of the owner with workers, a guarded write takes effect
only on a running task that no command has reached since the worker read the revision, and a task
is completed only on a decision that no command follows. -/
theorem steering_fence (es : List Event) :
    (∀ i env worker history op taskId r,
      pending? (systemAfter es) i = some (worker, history, op) → op.fence = some (taskId, r) →
      op.tookEffect (exec env op (systemAfter es).state).1 = true →
      (∃ t, (systemAfter es).state.tasks.task? taskId = some t ∧ t.status = .running ∧
        t.steeringRevision = r) ∧ Unsteered (systemAfter es).log worker taskId r) ∧
    (∀ e taskId t t', (systemAfter es).state.tasks.task? taskId = some t →
      (taskMachine.step (systemAfter es) e).state.tasks.task? taskId = some t' →
      t.status ≠ .completed → t'.status = .completed →
      ∃ i env worker history a r, e = .step i env ∧
        pending? (systemAfter es) i = some (worker, history, .workerTransition taskId a (some r)) ∧
        DecidedUnsteered (systemAfter es).log worker taskId) := by
  refine ⟨fun i env worker history op taskId r hpending hfence htook =>
    unsteered_of_tookEffect es hpending hfence htook, ?_⟩
  intro e taskId t t' ht ht' hbefore hafter
  rcases step_cases (M := taskMachine) (systemAfter es) e with
    ⟨i, env, worker, history, op, rfl, hpending, hstate, -⟩ | ⟨o, rfl, hstate, -⟩ |
      ⟨-, hstate, -⟩
  · rw [hstate] at ht'
    obtain ⟨a, expected, rfl, ha⟩ := completes_of_exec ht ht' hbefore hafter
    obtain ⟨hallowed, hlogged⟩ := Follows.allowed (reachable_follows es) hpending
    obtain ⟨r, rfl, hdecided⟩ := hallowed.decided taskId a expected rfl ha
    have htook := tookEffect_of_moved ht ht' fun h => hbefore (h.trans hafter)
    obtain ⟨-, hunsteered⟩ := unsteered_of_tookEffect es hpending rfl htook
    exact ⟨i, env, worker, history, a, r, rfl, hpending, hunsteered.decided hlogged hdecided⟩
  · rw [hstate] at ht'
    obtain ⟨t'', ht'', hstep⟩ := act_rows (Q := fun _ _ => False) o taskId t ht
    obtain rfl : t' = t'' := Option.some.inj (ht'.symm.trans ht'')
    obtain ⟨-, hfalse, -⟩ := hstep.completed hbefore hafter
    exact hfalse.elim
  · rw [hstate, ht] at ht'
    exact absurd (Option.some.inj ht' ▸ hafter) hbefore

end Fence

section Sample

def clockAt (second : Fin 1000) : Instant :=
  ⟨second.val * 1000000, seconds_lt_maxMicros second⟩

def sampleTask : TaskRequest where
  ownerId := "owner"
  sourceInterface := "local"
  submissionId := "s1"
  goal := "Summarize the notes."
  title := []
  sessionId := none
  workspaceRef := "w1"
  budgetSeconds := 60000000
  modelDecisions := 10
  capabilityCalls := 10

def sampleTaskJob : EnqueueArgs where
  jobId := "j1"
  jobType := agentTaskJob
  aggregateId := "t1"
  idempotencyKey := "t1:1"
  payload := []

def sampleWorker (workerId : Str) : WorkerConfig where
  workerId := workerId
  agentId := "agent"
  leaseSeconds := .micros 30000000
  maxSteps := 5
  maxSourceChars := 1000

/-- A task with its job, and a worker that is started for it. -/
def queuedRun : List Event :=
  [.outside (.createTask sampleTask "t1" (clockAt 0)),
    .outside (.reviews (.job (.enqueueJob sampleTaskJob (clockAt 1)))),
    .outside (.setActiveJob "t1" "j1" 1 (clockAt 2)), .start (sampleWorker "a")]

def answerEnv : Env where
  now := clockAt 3
  payload := [("task_id", .str "t1"), ("run_generation", .int 1)]
  chat := .ok ⟨"The notes are short.", none, 1000000⟩

/-- A worker that has an answer of the model and is about to complete the task. -/
def answeredRun : List Event := queuedRun ++ List.replicate 12 (.step 0 answerEnv)

theorem steering_fence_answeredRun :
    (∃ t, (@systemAfter asciiText answeredRun).state.tasks.task? "t1" = some t ∧
      t.status = .running ∧ t.steeringRevision = 0) ∧
    ∃ worker, Unsteered (@systemAfter asciiText answeredRun).log worker "t1" 0 ∧
      DecidedUnsteered (@systemAfter asciiText answeredRun).log worker "t1" := by
  obtain ⟨hwrites, hcompletes⟩ := @steering_fence asciiText answeredRun
  have hfence : (pending? (@systemAfter asciiText answeredRun) 0).bind
      (fun p => p.2.2.fence) = some (text "t1", 0) := by decide +kernel
  have htook : (pending? (@systemAfter asciiText answeredRun) 0).map
      (fun p => p.2.2.tookEffect
        (@exec asciiText answerEnv p.2.2 (@systemAfter asciiText answeredRun).state).1) =
      some true := by decide +kernel
  have hbefore : ((@systemAfter asciiText answeredRun).state.tasks.task? "t1").any
      (·.status ≠ .completed) = true := by decide +kernel
  have hafter : ((@taskMachine asciiText).step (@systemAfter asciiText answeredRun)
      (.step 0 answerEnv)).state.tasks.task? "t1" |>.any (·.status = .completed) := by
    decide +kernel
  obtain ⟨⟨worker, history, op⟩, hpending, hop⟩ := Option.bind_eq_some_iff.1 hfence
  obtain ⟨t, ht, hnot⟩ := (Option.any_eq_true _ _).1 hbefore
  obtain ⟨t', ht', hdone⟩ := (Option.any_eq_true _ _).1 hafter
  rw [hpending, Option.map_some, Option.some.injEq] at htook
  obtain ⟨hrunning, hunsteered⟩ := hwrites 0 answerEnv worker history op "t1" 0 hpending hop htook
  obtain ⟨i, env, worker', history', a, r, hevent, hpending', hdecided⟩ :=
    hcompletes _ "t1" t t' ht ht' (of_decide_eq_true hnot) (of_decide_eq_true hdone)
  obtain ⟨rfl, -⟩ := Event.step.inj hevent
  obtain ⟨rfl, -⟩ := Prod.mk.inj (Option.some.inj (hpending.symm.trans hpending'))
  exact ⟨hrunning, worker, hunsteered, hdecided⟩

end Sample

end HardyAI.Tasks
