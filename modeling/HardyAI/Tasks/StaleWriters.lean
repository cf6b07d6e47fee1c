import HardyAI.Tasks.SteeringFence

/-! Workers whose job has been claimed again. The task store knows no fencing token: what stops
the writes of the older worker is the status of the task and its steering revision alone. -/

open Foundation Foundation.Json Foundation.Machine Foundation.Trace HardyAI.Jobs HardyAI.Reviews

namespace HardyAI.Tasks

section Claims

/-- The writes that a worker issues under the token of its claim. -/
def Op.writes : Op → Bool
  | .consumeUsage .. | .setPlan .. | .workerTransition .. | .savePreference _
  | .saveSkillRevision _ | .finishEffect .. => true
  | _ => false

def claimed : Sigma Op.Reply → List DurableJob
  | ⟨.claimJobs _ _, .ok jobs⟩ => jobs
  | _ => []

/-- A claim of the job by a different worker, under a newer token. -/
def claimsAgain (worker : Nat) (job : DurableJob) : Entry → Bool
  | .ran other op reply => other ≠ worker && (claimed ⟨op, reply⟩).any fun newer =>
      newer.jobId = job.jobId && job.leaseFencingToken < newer.leaseFencingToken
  | .outside _ _ => false

/-- A job that the worker has claimed has been claimed again since. -/
def superseded (log : List Entry) (worker : Nat) (history : History Op.Reply) : Bool :=
  (history.flatMap claimed).any fun job => log.any (claimsAgain worker job)

/-- The write that an event serves for a worker whose job has been claimed again. -/
def staleWrite? (s : System) : Event → Option (Nat × Op)
  | .step i _ => (pending? s i).bind fun (worker, history, op) =>
      if op.writes && superseded s.log worker history then some (worker, op) else none
  | .start _ | .outside _ => none

end Claims

section Conditions

def halted (db : TaskDb) (taskId : Str) : Bool := (db.task? taskId).all (·.status ≠ .running)

/-- A command on the task has committed since a read of the worker that returned the revision. -/
def Steered (log : List Entry) (worker : Nat) (taskId : Str) (r : Int) : Prop :=
  ∃ a e b, log = a ++ e :: b ∧ ReadBy worker taskId r e ∧ ∃ c ∈ b, CommandOn taskId c

/-- The run has moved on in a way that the task store can see. -/
def Overtaken (s : System) (worker : Nat) : Op → Prop
  | .workerTransition taskId _ none => halted s.state.tasks taskId = true
  | .finishEffect taskId logicalId _ _ => s.state.tasks.effect? taskId logicalId = none
  | op => ∃ taskId r, op.fence = some (taskId, r) ∧
      (halted s.state.tasks taskId = true ∨ Steered s.log worker taskId r)

end Conditions

section Writes

variable [PythonText] {env : Env} {op : Op} {s : Store} {taskId : Str}

omit [PythonText] in
theorem halted_iff {db : TaskDb} :
    halted db taskId = true ↔ ∀ t, db.task? taskId = some t → t.status ≠ .running := by
  simp [halted, Option.all_eq_true]

/-- A write that has not taken effect leaves the task store unchanged. -/
theorem tasks_of_not_tookEffect (hwrites : op.writes = true)
    (h : ¬ op.tookEffect (exec env op s).1 = true) : (exec env op s).2.tasks = s.tasks := by
  cases op with
  | consumeUsage taskId expected seconds decisions calls => exact onTasks_of_not_ok h
  | setPlan taskId plan summary expected => exact onTasks_of_not_ok h
  | workerTransition taskId a expected => exact onTasks_of_not_ok h
  | savePreference a => exact onTasks_of_not_ok h
  | saveSkillRevision a => exact onTasks_of_not_ok h
  | finishEffect taskId logicalId state result => exact onTasks_of_not_ok h
  | _ => exact absurd hwrites Bool.false_ne_true

theorem running_of_transition {a : TransitionArgs} {expected : Option Int}
    (h : (Op.workerTransition taskId a expected).tookEffect
      (exec env (.workerTransition taskId a expected) s).1 = true) :
    halted s.tasks taskId ≠ true := by
  obtain ⟨row, hrow⟩ := isOk_reply h
  obtain ⟨⟨t, ht, hrunning⟩, -⟩ := workerTransition_spec hrow
  exact fun hhalted => halted_iff.1 hhalted t ht (runningAt_iff.1 hrunning).1

theorem effect_of_finish {logicalId : Str} {state : EffectState} {result : Fields}
    (h : (Op.finishEffect taskId logicalId state result).tookEffect
      (exec env (.finishEffect taskId logicalId state result) s).1 = true) :
    s.tasks.effect? taskId logicalId ≠ none := by
  obtain ⟨row, hrow⟩ := isOk_reply h
  obtain ⟨-, -, hsome, -⟩ := finishEffect_spec hrow
  exact Option.isSome_iff_ne_none.1 hsome

omit [PythonText] in
theorem overtaken_of_halted {s : System} {worker : Nat}
    (h : (op.fence.any fun f => halted s.state.tasks f.1) = true) : Overtaken s worker op := by
  obtain ⟨⟨taskId, r⟩, hfence, hhalted⟩ := (Option.any_eq_true _ _).1 h
  have hguarded : ∃ taskId r, op.fence = some (taskId, r) ∧
      (halted s.state.tasks taskId = true ∨ Steered s.log worker taskId r) :=
    ⟨taskId, r, hfence, .inl hhalted⟩
  cases op with
  | workerTransition k a expected =>
    cases expected with
    | none => exact absurd hfence (by simp [Op.fence])
    | some r => exact hguarded
  | finishEffect k logicalId state result => exact absurd hfence (by simp [Op.fence])
  | _ => exact hguarded

/-- Where the run has moved on visibly, no write takes effect. -/
theorem not_tookEffect_of_overtaken (es : List Event) {i : Nat} {worker : Nat}
    {history : History Op.Reply}
    (hpending : pending? (systemAfter es) i = some (worker, history, op))
    (h : Overtaken (systemAfter es) worker op) :
    ¬ op.tookEffect (exec env op (systemAfter es).state).1 = true := by
  intro htook
  have hguarded : ∀ taskId r, op.fence = some (taskId, r) →
      ¬ (halted (systemAfter es).state.tasks taskId = true ∨
        Steered (systemAfter es).log worker taskId r) := by
    intro taskId r hfence hmoved
    obtain ⟨⟨t, ht, hrunning, -⟩, -, hunsteered⟩ :=
      unsteered_of_tookEffect es hpending hfence htook
    rcases hmoved with hhalted | ⟨a, e, b, hsplit, hread, c, hc, hon⟩
    · exact halted_iff.1 hhalted t ht hrunning
    · exact hunsteered a e b hsplit hread c hc hon
  cases op with
  | workerTransition taskId a expected =>
    cases expected with
    | none => exact running_of_transition htook h
    | some r =>
      obtain ⟨k, r', hfence, hmoved⟩ := h
      exact hguarded k r' hfence hmoved
  | finishEffect taskId logicalId state result => exact effect_of_finish htook h
  | _ =>
    obtain ⟨k, r', hfence, hmoved⟩ := h
    exact hguarded k r' hfence hmoved

/-- In every run in which each write of a worker whose job was claimed again finds the task
halted or steered since, or its receipt gone, none of these writes changes the task store. -/
theorem stale_writers (es : List Event)
    (hovertaken : ∀ pre e post, es = pre ++ e :: post → ∀ worker op,
      staleWrite? (systemAfter pre) e = some (worker, op) →
      Overtaken (systemAfter pre) worker op) :
    ∀ pre e post, es = pre ++ e :: post → (staleWrite? (systemAfter pre) e).isSome = true →
      (systemAfter (pre ++ [e])).state.tasks = (systemAfter pre).state.tasks := by
  intro pre e post hsplit hstale
  obtain ⟨⟨worker, op⟩, hwrite⟩ := Option.isSome_iff_exists.1 hstale
  have hmoved := hovertaken pre e post hsplit worker op hwrite
  cases e with
  | start w => exact absurd hwrite (by simp [staleWrite?])
  | outside o => exact absurd hwrite (by simp [staleWrite?])
  | step i env =>
    obtain ⟨⟨w, history, op'⟩, hpending, hop⟩ := Option.bind_eq_some_iff.1 hwrite
    rw [Option.ite_none_right_eq_some, Bool.and_eq_true, Option.some.injEq, Prod.mk.injEq] at hop
    obtain ⟨⟨hwrites, -⟩, rfl, rfl⟩ := hop
    have hlast : systemAfter (pre ++ [.step i env]) = taskMachine.serve (systemAfter pre) i env :=
      run_concat (Machine.start Store.empty) pre (.step i env)
    have hstate : (taskMachine.serve (systemAfter pre) i env).state =
        (exec env op' (systemAfter pre).state).2 := (serve_of_pending hpending).1
    rw [hlast, hstate]
    exact tasks_of_not_tookEffect hwrites (not_tookEffect_of_overtaken pre hpending hmoved)

end Writes

section Sample

/-- The second worker claims the job when the lease of the first has run out. -/
def laterEnv : Env := { answerEnv with now := clockAt 40 }

/-- A worker with an answer of the model stands still until another has claimed its job. -/
def takenOverRun : List Event :=
  answeredRun ++ [.start (sampleWorker "b"), .step 1 laterEnv]

/-- The first worker completes the task under the older token. -/
theorem stale_completion_takenOverRun :
    (staleWrite? (@systemAfter asciiText takenOverRun) (.step 0 laterEnv)).isSome = true ∧
    ((@systemAfter asciiText takenOverRun).state.tasks.task? "t1").map (·.status) =
      some .running ∧
    ((@systemAfter asciiText (takenOverRun ++ [.step 0 laterEnv])).state.tasks.task? "t1").map
      (·.status) = some .completed := by
  decide +kernel

/-- The owner pauses the task before the first worker goes on. -/
def pauseTask : Event := .outside (.owner (.pause "t1" "owner" 2) (clockAt 41))

def pausedRun : List Event := takenOverRun ++ [pauseTask, .step 0 laterEnv]

theorem stale_writers_pausedRun :
    (@systemAfter asciiText (takenOverRun ++ [pauseTask] ++ [.step 0 laterEnv])).state.tasks =
      (@systemAfter asciiText (takenOverRun ++ [pauseTask])).state.tasks := by
  have hhalted : ∀ n < 20, (pausedRun[n]?).all (fun e =>
      (staleWrite? (@systemAfter asciiText (pausedRun.take n)) e).all fun p =>
        p.2.fence.any fun f => halted (@systemAfter asciiText (pausedRun.take n)).state.tasks f.1) =
      true := by decide +kernel
  have hstale : (staleWrite? (@systemAfter asciiText (takenOverRun ++ [pauseTask]))
      (.step 0 laterEnv)).isSome = true := by decide +kernel
  refine @stale_writers asciiText pausedRun (fun pre e post hsplit worker op hwrite => ?_)
    (takenOverRun ++ [pauseTask]) (.step 0 laterEnv) [] (by simp [pausedRun]) hstale
  have hlength : pre.length < 20 := by
    have hall : pausedRun.length = 20 := by decide
    rw [hsplit, List.length_append, List.length_cons] at hall
    omega
  have hhere := hhalted pre.length hlength
  have hevent : pausedRun[pre.length]? = some e := by simp [hsplit]
  have hfront : pausedRun.take pre.length = pre := by simp [hsplit]
  rw [hevent, hfront, Option.all_some] at hhere
  exact overtaken_of_halted ((Option.all_eq_true _ _).1 hhere (worker, op) hwrite)

end Sample

end HardyAI.Tasks
