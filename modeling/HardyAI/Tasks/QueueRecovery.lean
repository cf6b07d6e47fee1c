import HardyAI.Foundation.Blanks
import HardyAI.Foundation.Digests
import HardyAI.Tasks.TaskRows
import HardyAI.Tickets.ServedRequests

/-! The recovery of the task queue: every queued task that it selects is given a live job for its
generation, past the jobs of its earlier runs that have ended. -/

open Foundation Foundation.Json HardyAI.Jobs HardyAI.Tickets

namespace HardyAI.Tasks

section Service

/-- The task store and the ledger of jobs, which are written one after the other. -/
structure Queue where
  tasks : TaskDb
  jobs : JobLedger

/-- What one transaction takes from outside: the time and a fresh identifier. -/
structure Tick where
  now : Instant
  jobId : Str

def jobKey (taskId : Str) (generation : Int) : Str :=
  text "agent-task:v1:" ++ taskId ++ text ":" ++ intText generation

/-- The job that `_enqueue` asks for. -/
def taskJob (task : AgentTask) (jobId : Str) : EnqueueArgs where
  jobId := jobId
  jobType := agentTaskJob
  aggregateId := task.taskId
  idempotencyKey := jobKey task.taskId task.runGeneration
  payload := [("task_id", .str task.taskId), ("run_generation", .int task.runGeneration)]
  maxAttempts := 8
  priority := 50

/-- `queued_tasks`. -/
def queuedTasks (db : TaskDb) (limit : Int) : List AgentTask :=
  ((db.tasks.rows.filter (·.status = .queued)).insertionSort
    fun a b => a.createdAt ≤ b.createdAt).take (max 1 (min limit 2000)).toNat

variable [PythonText]

/-- `_enqueue`, which calls itself behind a job that has ended; `depth` is the number of calls
that the interpreter's stack has room for, and `n` counts the transactions. -/
def enqueue (ticks : Nat → Tick) : Nat → Nat → AgentTask → Queue →
    Except PyError DurableJob × Nat × Queue
  | 0, n, _, q => (.error (.runtimeError "maximum recursion depth exceeded"), n, q)
  | depth + 1, n, task, q =>
    match enqueueJob (taskJob task (ticks n).jobId) (ticks n).now q.jobs with
    | .error e => (.error e, n + 1, q)
    | .ok (job, jobs) =>
      if job.finished then
        match advanceQueuedGeneration task.taskId task.runGeneration (ticks (n + 1)).now q.tasks with
        | .error e => (.error e, n + 2, { q with jobs })
        | .ok (task, tasks) => enqueue ticks depth (n + 2) task { tasks, jobs }
      else
        (.ok job, n + 2,
          { tasks := (setActiveJob task.taskId job.jobId task.runGeneration
              (ticks (n + 1)).now).commit q.tasks
            jobs })

def liveStatus (job : DurableJob) : Bool :=
  job.status = .pending || job.status = .retry || job.status = .running

/-- The loop of `recover_queued`. -/
def recoverTasks (ticks : Nat → Tick) (depth : Nat) : List AgentTask → Nat → Nat → Queue →
    Except PyError Nat × Nat × Queue
  | [], recovered, n, q => (.ok recovered, n, q)
  | task :: tasks, recovered, n, q =>
    match enqueue ticks depth n task q with
    | (.error e, n, q) => (.error e, n, q)
    | (.ok job, n, q) =>
      recoverTasks ticks depth tasks (if liveStatus job then recovered + 1 else recovered) n q

/-- `recover_queued`. -/
def recoverQueued (ticks : Nat → Tick) (depth : Nat) (q : Queue) :
    Except PyError Nat × Nat × Queue :=
  recoverTasks ticks depth (queuedTasks q.tasks 500) 0 0 q

end Service

section Ledger

variable {l l' : JobLedger} {row job : DurableJob}

def JobLedger.keys (l : JobLedger) : List Str := l.jobs.rows.map DurableJob.idempotencyKey

theorem insertOrIgnore_rows (h : l.insertOrIgnore row = .ok l') :
    (row.idempotencyKey ∈ JobLedger.keys l ∧ l' = l) ∨
      (row.idempotencyKey ∉ JobLedger.keys l ∧ l'.jobs.rows = l.jobs.rows ++ [row]) := by
  unfold JobLedger.insertOrIgnore at h
  split at h
  · next hkey =>
    split_ifs at h
    exact .inl ⟨hkey, (Except.ok.inj h).symm⟩
  · next hkey =>
    split at h
    · cases h
    · next jobs hinsert =>
      obtain rfl := Except.ok.inj h
      exact .inr ⟨hkey, (Table.insert?_eq_some hinsert).2⟩

variable [PythonText]

/-- A job under a key that is taken is the old one, and a new one is the row that is inserted. -/
theorem enqueueJob_cases {a : EnqueueArgs} {now : Instant}
    (h : enqueueJob a now l = .ok (job, l')) : ∃ row, a.row now = .ok row ∧
      job.idempotencyKey = row.idempotencyKey ∧
      ((job ∈ l.jobs.rows ∧ l' = l) ∨
        (row.idempotencyKey ∉ JobLedger.keys l ∧ job = row ∧
          l'.jobs.rows = l.jobs.rows ++ [row])) := by
  simp only [enqueueJob, bind_eq_ok] at h
  obtain ⟨row, hrow, l₁, hinsert, h⟩ := h
  rw [findKey?_insertOrIgnore hinsert] at h
  simp only [bind_eq_ok, Except.ok.injEq, Prod.mk.injEq] at h
  obtain ⟨_, -, hjob, rfl⟩ := h
  refine ⟨row, hrow, ?_⟩
  cases hold : l.findKey? row.idempotencyKey with
  | some old =>
    rw [hold, Option.getD_some] at hjob
    obtain rfl := hjob
    have hkey : old.idempotencyKey = row.idempotencyKey := by simpa using List.find?_some hold
    have hmem : old ∈ l.jobs.rows := List.mem_of_find?_eq_some hold
    rcases insertOrIgnore_rows hinsert with ⟨-, rfl⟩ | ⟨hnew, -⟩
    · exact ⟨hkey, .inl ⟨hmem, rfl⟩⟩
    · exact absurd (hkey ▸ List.mem_map_of_mem hmem) hnew
  | none =>
    rw [hold, Option.getD_none] at hjob
    obtain rfl := hjob
    rcases insertOrIgnore_rows hinsert with ⟨htaken, -⟩ | ⟨hnew, hrows⟩
    · obtain ⟨old, hmem, hkey⟩ := List.mem_map.1 htaken
      exact absurd (decide_eq_true hkey) (by simpa using List.find?_eq_none.1 hold old hmem)
    · exact ⟨rfl, .inr ⟨hnew, rfl, hrows⟩⟩

end Ledger

section Keys

theorem mem_intText {n : Int} {c : CodePoint} (h : c ∈ intText n) :
    isNumeral c = true ∨ c = 0x2D := by
  cases n with
  | ofNat n => exact .inl (isNumeral_natText h)
  | negSucc n =>
    rcases List.mem_append.1 h with hsign | hdigits
    · have hdash : text "-" = [0x2D] := by decide
      rw [hdash, List.mem_singleton] at hsign
      exact .inr hsign
    · exact .inl (isNumeral_natText hdigits)

theorem isSpace_of_mem_intText {n : Int} {c : CodePoint} (h : c ∈ intText n) :
    isSpace c = false := by
  rcases mem_intText h with hnumeral | rfl
  · simp only [isNumeral, Bool.and_eq_true, decide_eq_true_eq] at hnumeral
    simp only [isSpace, Bool.or_eq_false_iff, Bool.and_eq_false_iff, decide_eq_false_iff_not,
      beq_eq_false_iff_ne]
    omega
  · decide

theorem colon_notMem_intText (n : Int) : (0x3A : CodePoint) ∉ intText n := by
  intro h
  rcases mem_intText h with hnumeral | hsign
  · revert hnumeral
    decide
  · revert hsign
    decide

theorem jobKey_cons (taskId : Str) (g : Int) : ∃ rest, jobKey taskId g = 0x61 :: rest :=
  ⟨_, rfl⟩

theorem strip_jobKey (taskId : Str) (g : Int) : strip (jobKey taskId g) = jobKey taskId g := by
  refine strip_of_ends (fun c hc => ?_) fun c hc => ?_
  · obtain ⟨rest, hrest⟩ := jobKey_cons taskId g
    rw [hrest] at hc
    obtain rfl := Option.some.inj hc
    decide
  · obtain ⟨d, digits, hdigits, -⟩ := intText_kind g
    have hne : intText g ≠ [] := by rw [hdigits]; exact List.cons_ne_nil _ _
    rw [jobKey, List.getLast?_append_of_ne_nil _ hne] at hc
    exact isSpace_of_mem_intText (List.mem_of_getLast? hc)

/-- The part behind the last colon is the generation. -/
theorem jobKey_injective {taskId taskId' : Str} {g g' : Int}
    (h : jobKey taskId g = jobKey taskId' g') : taskId = taskId' ∧ g = g' := by
  have hcolon : text ":" = [0x3A] := by decide
  simp only [jobKey, List.append_assoc, List.append_cancel_left_eq, hcolon] at h
  have hsplit := (List.append_eq_append_iff).1 h
  have hnone := colon_notMem_intText g
  have hnone' := colon_notMem_intText g'
  rcases hsplit with ⟨mid, htask, hrest⟩ | ⟨mid, htask, hrest⟩
  · cases mid with
    | nil =>
      simp only [List.append_nil, List.nil_append, List.cons_append, List.cons.injEq,
        true_and] at htask hrest
      exact ⟨htask.symm, intText_injective hrest⟩
    | cons c mid =>
      simp only [List.cons_append, List.nil_append, List.cons.injEq] at hrest
      exact absurd (hrest.2 ▸ List.mem_append_right mid List.mem_cons_self) hnone
  · cases mid with
    | nil =>
      simp only [List.append_nil, List.nil_append, List.cons_append, List.cons.injEq,
        true_and] at htask hrest
      exact ⟨htask, intText_injective hrest.symm⟩
    | cons c mid =>
      simp only [List.cons_append, List.nil_append, List.cons.injEq] at hrest
      exact absurd (hrest.2 ▸ List.mem_append_right mid List.mem_cons_self) hnone'

/-- A task whose identifier is stored, at a generation that can be written, has a job. -/
theorem storable_taskJob {t : AgentTask} {jobId : Str} (hid : encodable jobId = true)
    (htask : encodable t.taskId = true) (hshort : t.runGeneration.natAbs < 10 ^ 4300) :
    Storable (taskJob t jobId) where
  id := hid
  jobType := by
    show encodable (strip agentTaskJob) = true
    decide
  plain := by
    show approvalJobFields (strip agentTaskJob) = none
    decide
  aggregate := htask
  key := by
    have hgeneration : encodable (intText t.runGeneration) = true :=
      encodable_of_isAscii (isAscii_intText _)
    show encodable (jobKey _ _) = true
    rw [jobKey, encodable_append, encodable_append, encodable_append, htask, hgeneration]
    decide
  unreserved := ⟨0x61, _, rfl, by decide, by decide⟩
  payload := by
    have hlong : (Json.int t.runGeneration).hasLongInt = false := by
      rw [hasLongInt, decide_eq_false_iff_not, Nat.not_le]
      exact hshort
    show ((Json.str t.taskId).hasLongInt ||
      ((Json.int t.runGeneration).hasLongInt || hasLongIntFields [])) = false
    rw [hlong]
    rfl
  available s hs := by cases hs
  attempts := by
    show max 1 (8 : Int) < 2 ^ 63
    decide
  resourceClass := rfl
  deadline := rfl

end Keys

section Recovery

/-- The ticks of one service: every identifier is new and can be stored. -/
structure FreshTicks (ticks : Nat → Tick) : Prop where
  distinct : Function.Injective fun n => (ticks n).jobId
  encodable : ∀ n, encodable (ticks n).jobId = true

/-- What the two stores keep while tasks are enqueued; the identifiers of later ticks are still
unused. -/
structure Recoverable (ticks : Nat → Tick) (n : Nat) (q : Queue) : Prop where
  tasks : ∀ k t, q.tasks.task? k = some t → encodable k = true
  jobs : ∀ j r, q.jobs.find? j = some r → JobStored r
  fresh : ∀ m, n ≤ m → q.jobs.find? (ticks m).jobId = none

/-- A job for the current generation of the task that waits or runs. -/
def LiveJob (q : Queue) (t : AgentTask) (job : DurableJob) : Prop :=
  job ∈ q.jobs.jobs.rows ∧ job.idempotencyKey = jobKey t.taskId t.runGeneration ∧
    liveStatus job = true

/-- The task is queued, with a live job for its generation. -/
def Recovered (q : Queue) (taskId : Str) : Prop :=
  ∃ t job, q.tasks.task? taskId = some t ∧ t.status = .queued ∧
    t.activeJobId = some job.jobId ∧ LiveJob q t job

/-- What enqueueing a task has done. -/
structure Enqueued (ticks : Nat → Tick) (n : Nat) (q : Queue) (taskId : Str) (n' : Nat)
    (q' : Queue) : Prop where
  recovered : Recovered q' taskId
  others : ∀ k, k ≠ taskId → q'.tasks.task? k = q.tasks.task? k
  rows : ∃ new, q'.jobs.jobs.rows = q.jobs.jobs.rows ++ new ∧ new.length ≤ 1 ∧
    ∀ r ∈ new, ∃ g, r.idempotencyKey = jobKey taskId g
  later : n ≤ n'
  recoverable : Recoverable ticks n' q'

variable {ticks : Nat → Tick} {n : Nat} {q : Queue} {t : AgentTask}

theorem task?_update_self {db : TaskDb} {taskId : Str} {row : AgentTask} {g : AgentTask → Bool}
    {f : Table.Assignment AgentTask.taskId} (hrow : db.task? taskId = some row)
    (hg : g row = true) : (db.updateTask taskId g f).2.task? taskId = some (f.apply row) := by
  rw [task?_updateTask, hrow, Option.map_some, if_pos ⟨rfl, hg⟩]

theorem task?_update_of_ne {db : TaskDb} {taskId k : Str} {g : AgentTask → Bool}
    {f : Table.Assignment AgentTask.taskId} (hne : k ≠ taskId) :
    (db.updateTask taskId g f).2.task? k = db.task? k := by
  rw [task?_updateTask]
  cases hrow : db.task? k with
  | none => rfl
  | some row => rw [Option.map_some, if_neg fun hboth => hne hboth.1]

/-- A queued task is moved past its generation. -/
theorem advanceQueuedGeneration_spec {db : TaskDb} (now : Instant)
    (hrow : db.task? t.taskId = some t) (hqueued : t.status = .queued) :
    ∃ tasks, advanceQueuedGeneration t.taskId t.runGeneration now db =
        .ok ((advanceGeneration (isoUtc now)).apply t, tasks) ∧
      tasks.task? t.taskId = some ((advanceGeneration (isoUtc now)).apply t) ∧
      ∀ k, k ≠ t.taskId → tasks.task? k = db.task? k := by
  let guard : AgentTask → Bool := fun row =>
    row.status = .queued && row.runGeneration = t.runGeneration
  have hguard : guard t = true := by simp [guard, hqueued]
  have hself : (db.updateTask t.taskId guard (advanceGeneration (isoUtc now))).2.task? t.taskId =
      some ((advanceGeneration (isoUtc now)).apply t) := task?_update_self hrow hguard
  have hchanged : (db.updateTask t.taskId guard (advanceGeneration (isoUtc now))).1 = true :=
    updateTask_fst.2 ⟨t, hrow, hguard⟩
  exact ⟨_, bind_eq_ok.2 ⟨(), require_eq_ok.2 hchanged, bind_eq_ok.2
    ⟨_, writtenTask_eq_ok.2 hself, rfl⟩⟩, hself, fun k hk => task?_update_of_ne hk⟩

theorem setActiveJob_spec {db : TaskDb} (jobId : Str) (now : Instant)
    (hrow : db.task? t.taskId = some t) (hqueued : t.status = .queued) :
    ((setActiveJob t.taskId jobId t.runGeneration now).commit db).task? t.taskId =
        some ((setActive jobId (isoUtc now)).apply t) ∧
      ∀ k, k ≠ t.taskId → ((setActiveJob t.taskId jobId t.runGeneration now).commit db).task? k =
        db.task? k := by
  let guard : AgentTask → Bool := fun row =>
    row.runGeneration = t.runGeneration && row.status = .queued
  have hguard : guard t = true := by simp [guard, hqueued]
  have hself : (db.updateTask t.taskId guard (setActive jobId (isoUtc now))).2.task? t.taskId =
      some ((setActive jobId (isoUtc now)).apply t) := task?_update_self hrow hguard
  exact ⟨hself, fun k hk => task?_update_of_ne hk⟩

/-- What changes the row of one task keeps what is kept of the task rows. -/
theorem Recoverable.encodable_of_others (hq : Recoverable ticks n q) {tasks : TaskDb}
    (hrow : q.tasks.task? t.taskId = some t)
    (hothers : ∀ k, k ≠ t.taskId → tasks.task? k = q.tasks.task? k) :
    ∀ k row, tasks.task? k = some row → encodable k = true := by
  intro k row hk
  by_cases hsame : k = t.taskId
  · exact hsame ▸ hq.tasks _ _ hrow
  · exact hq.tasks k row ((hothers k hsame).symm.trans hk)

/-- A task that is enqueued after its generation was moved on has been enqueued. -/
theorem Enqueued.of_advanced {tasks : TaskDb} {taskId : Str} {n' : Nat} {q' : Queue}
    (h : Enqueued ticks (n + 2) ⟨tasks, q.jobs⟩ taskId n' q')
    (hothers : ∀ k, k ≠ taskId → tasks.task? k = q.tasks.task? k) :
    Enqueued ticks n q taskId n' q' where
  recovered := h.recovered
  others k hk := (h.others k hk).trans (hothers k hk)
  rows := h.rows
  later := (Nat.le_add_right n 2).trans h.later
  recoverable := h.recoverable

theorem liveStatus_of_unfinished {job : DurableJob} (h : job.finished = false) :
    liveStatus job = true := by
  unfold DurableJob.finished at h
  unfold liveStatus
  cases hstatus : job.status <;> simp_all

variable [PythonText]

theorem row_unfinished {a : EnqueueArgs} {now : Instant} {row : DurableJob}
    (h : a.row now = .ok row) : row.finished = false := by
  simp only [EnqueueArgs.row, bind_eq_ok, Except.ok.injEq] at h
  obtain ⟨_, _, _, _, _, _, _, _, rfl⟩ := h
  rfl

theorem row_taskJob_key (hfloat : ∀ bits, isAscii (PythonText.floatRepr bits) = true)
    {jobId : Str} {now : Instant} {row : DurableJob} (hstorable : Storable (taskJob t jobId))
    (hrow : (taskJob t jobId).row now = .ok row) :
    row.idempotencyKey = jobKey t.taskId t.runGeneration := by
  obtain ⟨row', hsame, hstrip⟩ : ∃ row', (taskJob t jobId).row now = .ok row' ∧
      row'.idempotencyKey = strip (taskJob t jobId).idempotencyKey := hstorable.row hfloat
  obtain rfl := Except.ok.inj (hrow.symm.trans hsame)
  rw [hstrip]
  exact strip_jobKey _ _

/-- The job that a task is given, and what the ledger keeps. -/
theorem enqueueJob_taskJob (hfloat : ∀ bits, isAscii (PythonText.floatRepr bits) = true)
    (hticks : FreshTicks ticks) (hrow : q.tasks.task? t.taskId = some t)
    (hq : Recoverable ticks n q) (hshort : t.runGeneration.natAbs < 10 ^ 4300) :
    ∃ job jobs new, enqueueJob (taskJob t (ticks n).jobId) (ticks n).now q.jobs = .ok (job, jobs) ∧
      job ∈ jobs.jobs.rows ∧ job.idempotencyKey = jobKey t.taskId t.runGeneration ∧
      jobs.jobs.rows = q.jobs.jobs.rows ++ new ∧ new.length ≤ 1 ∧
      (∀ r ∈ new, r.idempotencyKey = jobKey t.taskId t.runGeneration) ∧
      (job.finished = true → jobs = q.jobs) ∧
      (∀ j r, jobs.find? j = some r → JobStored r) ∧
      ∀ m, n + 1 ≤ m → jobs.find? (ticks m).jobId = none := by
  have hstorable := storable_taskJob (hticks.encodable n) (hq.tasks _ _ hrow) hshort
  obtain ⟨⟨job, jobs⟩, henqueue⟩ : ∃ p, enqueueJob (taskJob t (ticks n).jobId) (ticks n).now
      q.jobs = .ok p := hstorable.accepted hfloat hq.jobs (hq.fresh n le_rfl)
  obtain ⟨row, hrow', hkey, hcases⟩ := enqueueJob_cases henqueue
  have hrowKey := row_taskJob_key hfloat hstorable hrow'
  have hstored : ∀ j r, jobs.find? j = some r → JobStored r := by
    have hstep : Jobs.step q.jobs (.enqueueJob (taskJob t (ticks n).jobId) (ticks n).now) = jobs := by
      show ((enqueueJob _ _).mapReply (Reply.row ∘ some)).commit q.jobs = jobs
      rw [Transaction.commit_mapReply, Transaction.commit_of_ok henqueue]
    exact fun j r hr => jobStored_step hq.jobs _ j r (hstep ▸ hr)
  refine ⟨job, jobs, ?_⟩
  rcases hcases with ⟨hmem, rfl⟩ | ⟨-, rfl, hrows⟩
  · refine ⟨[], henqueue, hmem, hkey.trans hrowKey, by simp, by simp, by simp, fun _ => rfl, hstored,
      fun m hm => hq.fresh m (by omega)⟩
  · refine ⟨[job], henqueue, by simp [hrows], hrowKey, hrows, le_rfl, by simpa using hrowKey, ?_,
      hstored, fun m hm => ?_⟩
    · intro hfinished
      rw [row_unfinished hrow'] at hfinished
      cases hfinished
    · refine Table.find?_eq_none.2 fun r hr hid => ?_
      rw [hrows, List.mem_append, List.mem_singleton] at hr
      rcases hr with hold | rfl
      · exact Table.find?_eq_none.1 (hq.fresh m (by omega)) r hold hid
      · have hticked : r.jobId = (ticks n).jobId := EnqueueArgs.row_jobId hrow'
        have hsame : n = m := hticks.distinct (hticked.symm.trans hid)
        omega

/-- Within the depth a task gets a live job, or every generation within it has ended. -/
theorem enqueue_spec (hfloat : ∀ bits, isAscii (PythonText.floatRepr bits) = true)
    (hticks : FreshTicks ticks) (depth : Nat) (hrow : q.tasks.task? t.taskId = some t)
    (hqueued : t.status = .queued) (hq : Recoverable ticks n q)
    (hshort : ∀ i : Nat, i < depth → (t.runGeneration + i).natAbs < 10 ^ 4300) :
    (∃ job n' q', enqueue ticks depth n t q = (.ok job, n', q') ∧ liveStatus job = true ∧
      Enqueued ticks n q t.taskId n' q') ∨
    ∀ j : Nat, j < depth → jobKey t.taskId (t.runGeneration + j) ∈ JobLedger.keys q.jobs := by
  induction depth generalizing n q t with
  | zero => exact .inr fun j hj => absurd hj (Nat.not_lt_zero j)
  | succ depth ih =>
    have hfirst : t.runGeneration.natAbs < 10 ^ 4300 := by
      have hzero := hshort 0 (Nat.succ_pos depth)
      rwa [Int.natCast_zero, Int.add_zero] at hzero
    obtain ⟨job, jobs, new, henqueue, hmem, hkey, hrows, hlength, hnew, hold, hstored, hfresh⟩ :=
      enqueueJob_taskJob hfloat hticks hrow hq hfirst
    rw [enqueue, henqueue]
    dsimp only
    cases hfinished : job.finished with
    | true =>
      -- the job has ended, so the task goes on with its next generation
      obtain rfl := hold hfinished
      obtain ⟨tasks, hadvance, hself, hothers⟩ :=
        advanceQueuedGeneration_spec (ticks (n + 1)).now hrow hqueued
      rw [if_pos rfl, hadvance]
      dsimp only
      have hnext : Recoverable ticks (n + 2) ⟨tasks, q.jobs⟩ :=
        ⟨hq.encodable_of_others hrow hothers, hq.jobs, fun m hm => hq.fresh m (by omega)⟩
      have hshort' : ∀ i : Nat, i < depth → (t.runGeneration + 1 + i).natAbs < 10 ^ 4300 := by
        intro i hi
        have hlater := hshort (i + 1) (Nat.succ_lt_succ hi)
        rwa [Nat.cast_succ, ← add_assoc, add_right_comm] at hlater
      rcases ih (t := (advanceGeneration (isoUtc (ticks (n + 1)).now)).apply t)
        hself hqueued hnext hshort' with ⟨job', n', q', hrun, hlive, hdone⟩ | hall
      · exact .inl ⟨job', n', q', hrun, hlive, hdone.of_advanced hothers⟩
      · refine .inr fun j hj => ?_
        cases j with
        | zero =>
          rw [Int.natCast_zero, Int.add_zero, ← hkey]
          exact List.mem_map_of_mem hmem
        | succ j =>
          have htaken := hall j (Nat.lt_of_succ_lt_succ hj)
          rwa [Nat.cast_succ, ← add_assoc, add_right_comm]
    | false =>
      obtain ⟨hself, hothers⟩ :=
        setActiveJob_spec job.jobId (ticks (n + 1)).now hrow hqueued
      have hlive := liveStatus_of_unfinished hfinished
      refine .inl ⟨job, n + 2, _, rfl, hlive, ?_⟩
      exact ⟨⟨_, job, hself, hqueued, rfl, hmem, hkey, hlive⟩, hothers,
        ⟨new, hrows, hlength, fun r hr => ⟨_, hnew r hr⟩⟩, Nat.le_add_right n 2,
        hq.encodable_of_others hrow hothers, hstored, fun m hm => hfresh m (by omega)⟩

end Recovery

section Run

variable {ticks : Nat → Tick} {n : Nat} {q q' : Queue} {t : AgentTask}

/-- What is recovered stays recovered while other tasks are enqueued. -/
theorem Recovered.mono {taskId : Str} (h : Recovered q taskId)
    (htask : q'.tasks.task? taskId = q.tasks.task? taskId) {new : List DurableJob}
    (hrows : q'.jobs.jobs.rows = q.jobs.jobs.rows ++ new) : Recovered q' taskId := by
  obtain ⟨t, job, ht, hqueued, hactive, hmem, hkey, hlive⟩ := h
  refine ⟨t, job, htask.trans ht, hqueued, hactive, ?_, hkey, hlive⟩
  rw [hrows]
  exact List.mem_append_left new hmem

/-- The tasks that are still to be enqueued. -/
structure Waiting (depth : Nat) (q : Queue) (tasks : List AgentTask) : Prop where
  distinct : (tasks.map AgentTask.taskId).Nodup
  row : ∀ t ∈ tasks, q.tasks.task? t.taskId = some t
  queued : ∀ t ∈ tasks, t.status = .queued
  short : ∀ t ∈ tasks, ∀ i : Nat, i < depth → (t.runGeneration + i).natAbs < 10 ^ 4300
  room : ∀ t ∈ tasks, ∃ j : Nat, j < depth ∧
    jobKey t.taskId (t.runGeneration + j) ∉ JobLedger.keys q.jobs

theorem Waiting.tail {depth n' : Nat} {tasks : List AgentTask}
    (h : Waiting depth q (t :: tasks)) (hdone : Enqueued ticks n q t.taskId n' q') :
    Waiting depth q' tasks := by
  have hdistinct := List.nodup_cons.1 h.distinct
  have hne {u : AgentTask} (hu : u ∈ tasks) : u.taskId ≠ t.taskId := fun hsame =>
    hdistinct.1 (hsame ▸ List.mem_map_of_mem hu)
  refine ⟨hdistinct.2, fun u hu => ?_, fun u hu => h.queued u (List.mem_cons_of_mem t hu),
    fun u hu => h.short u (List.mem_cons_of_mem t hu), fun u hu => ?_⟩
  · exact (hdone.others _ (hne hu)).trans (h.row u (List.mem_cons_of_mem t hu))
  · obtain ⟨j, hj, hfree⟩ := h.room u (List.mem_cons_of_mem t hu)
    obtain ⟨new, hrows, -, hnew⟩ := hdone.rows
    refine ⟨j, hj, fun htaken => ?_⟩
    rw [JobLedger.keys, hrows, List.map_append, List.mem_append] at htaken
    rcases htaken with hold | hadded
    · exact hfree hold
    · obtain ⟨r, hr, hkey⟩ := List.mem_map.1 hadded
      obtain ⟨g, hg⟩ := hnew r hr
      exact hne hu (jobKey_injective (hkey.symm.trans hg)).1

variable [PythonText]

/-- What the loop over some tasks does. -/
theorem recoverTasks_spec (hfloat : ∀ bits, isAscii (PythonText.floatRepr bits) = true)
    (hticks : FreshTicks ticks) {depth : Nat} {tasks : List AgentTask} (recovered : Nat)
    (h : Waiting depth q tasks) (hq : Recoverable ticks n q) :
    ∃ n' q', recoverTasks ticks depth tasks recovered n q =
        (.ok (recovered + tasks.length), n', q') ∧
      (∀ t ∈ tasks, Recovered q' t.taskId) ∧
      (∀ k ∉ tasks.map AgentTask.taskId, q'.tasks.task? k = q.tasks.task? k) ∧
      ∃ new, q'.jobs.jobs.rows = q.jobs.jobs.rows ++ new ∧ new.length ≤ tasks.length := by
  induction tasks generalizing recovered n q with
  | nil =>
    exact ⟨n, q, rfl, fun t ht => absurd ht List.not_mem_nil, fun _ _ => rfl, [],
      (List.append_nil _).symm, le_rfl⟩
  | cons t tasks ih =>
    have hmem : t ∈ t :: tasks := List.mem_cons_self
    rcases enqueue_spec hfloat hticks depth (h.row t hmem) (h.queued t hmem) hq (h.short t hmem)
      with ⟨job, n₁, q₁, hrun, hlive, hdone⟩ | hall
    · obtain ⟨n', q', hrest, hrecovered, hothers, new, hrows, hlength⟩ :=
        ih (recovered + 1) (h.tail hdone) hdone.recoverable
      obtain ⟨new₁, hrows₁, hlength₁, -⟩ := hdone.rows
      have hfirst : t.taskId ∉ tasks.map AgentTask.taskId := (List.nodup_cons.1 h.distinct).1
      refine ⟨n', q', ?_, fun u hu => ?_, fun k hk => ?_, new₁ ++ new, ?_, ?_⟩
      · rw [recoverTasks, hrun]
        dsimp only
        rw [if_pos hlive, hrest, List.length_cons, add_right_comm, add_assoc]
      · rcases List.mem_cons.1 hu with rfl | hu
        · exact hdone.recovered.mono (hothers _ hfirst) hrows
        · exact hrecovered u hu
      · rw [List.map_cons, List.mem_cons, not_or] at hk
        exact (hothers k hk.2).trans (hdone.others k hk.1)
      · rw [hrows, hrows₁, List.append_assoc]
      · rw [List.length_append, List.length_cons]
        omega
    · obtain ⟨j, hj, hfree⟩ := h.room t hmem
      exact absurd (hall j hj) hfree

omit [PythonText] in
/-- No more generations of a task have a job than there are jobs. -/
theorem exists_free_generation {depth : Nat} (hdepth : q.jobs.jobs.rows.length < depth)
    (taskId : Str) (g : Int) :
    ∃ j : Nat, j < depth ∧ jobKey taskId (g + j) ∉ JobLedger.keys q.jobs := by
  by_contra hnone
  have hall : ∀ j : Nat, j < depth → jobKey taskId (g + j) ∈ JobLedger.keys q.jobs := by
    intro j hj
    by_contra hfree
    exact hnone ⟨j, hj, hfree⟩
  let taken : List Str := (List.range depth).map fun j => jobKey taskId (g + (j : Nat))
  have hdistinct : taken.Nodup := by
    refine List.nodup_range.map fun i j hij => ?_
    have hsame := (jobKey_injective hij).2
    omega
  have hsubset : taken ⊆ JobLedger.keys q.jobs := by
    intro k hk
    obtain ⟨j, hj, rfl⟩ := List.mem_map.1 hk
    exact hall j (List.mem_range.1 hj)
  have hlength := (List.subperm_of_subset hdistinct hsubset).length_le
  rw [JobLedger.keys, List.length_map, List.length_map, List.length_range] at hlength
  omega

omit [PythonText] in
theorem mem_queuedTasks {db : TaskDb} {limit : Int} (h : t ∈ queuedTasks db limit) :
    db.task? t.taskId = some t ∧ t.status = .queued := by
  have hsorted := List.mem_of_mem_take h
  rw [List.mem_insertionSort, List.mem_filter, decide_eq_true_eq] at hsorted
  exact ⟨Table.find?_of_mem hsorted.1, hsorted.2⟩

omit [PythonText] in
theorem mem_queuedTasks_of_few {db : TaskDb}
    (hfew : (db.tasks.rows.filter (·.status = .queued)).length ≤ 500) (ht : t ∈ db.tasks.rows)
    (hqueued : t.status = .queued) : t ∈ queuedTasks db 500 := by
  have hall : ((db.tasks.rows.filter (·.status = .queued)).insertionSort
      fun a b => a.createdAt ≤ b.createdAt).length ≤ (max 1 (min 500 2000) : Int).toNat := by
    rw [(List.perm_insertionSort _ _).length_eq]
    exact hfew
  rw [queuedTasks, List.take_of_length_le hall, List.mem_insertionSort, List.mem_filter,
    decide_eq_true_eq]
  exact ⟨ht, hqueued⟩

omit [PythonText] in
/-- A number that a column holds has few digits. -/
theorem writable_of_stored {digits : Nat} (h : 19 ≤ digits) : 2 ^ 63 < 10 ^ digits := by
  calc
    2 ^ 63 < 10 ^ 19 := by decide
    _ ≤ 10 ^ digits := Nat.pow_le_pow_right (by decide) h

omit [PythonText] in
theorem queuedTasks_distinct (db : TaskDb) (limit : Int) :
    ((queuedTasks db limit).map AgentTask.taskId).Nodup := by
  have hfilter : ((db.tasks.rows.filter (·.status = .queued)).map AgentTask.taskId).Nodup :=
    db.tasks.unique.sublist (List.filter_sublist.map _)
  have hsorted : (((db.tasks.rows.filter (·.status = .queued)).insertionSort
      fun a b => a.createdAt ≤ b.createdAt).map AgentTask.taskId).Nodup :=
    ((List.perm_insertionSort _ _).map AgentTask.taskId).nodup_iff.2 hfilter
  exact hsorted.sublist ((List.take_sublist _ _).map _)

/-- The recovery raises nothing where the stack has room for as many calls as there are jobs: each
task that it selects is left queued, with a live job for its generation, whatever ended the jobs of
its earlier generations. -/
theorem queue_recovery (hfloat : ∀ bits, isAscii (PythonText.floatRepr bits) = true)
    (hticks : FreshTicks ticks) (hq : Recoverable ticks 0 q) {depth : Nat}
    (hdepth : q.jobs.jobs.rows.length < depth)
    (hgeneration : ∀ t ∈ q.tasks.tasks.rows, t.runGeneration.natAbs + depth < 2 ^ 63) :
    ∃ n q', recoverQueued ticks depth q = (.ok (queuedTasks q.tasks 500).length, n, q') ∧
      (∀ t ∈ queuedTasks q.tasks 500, Recovered q' t.taskId) ∧
      (∀ k ∉ (queuedTasks q.tasks 500).map AgentTask.taskId,
        q'.tasks.task? k = q.tasks.task? k) ∧
      (∃ new, q'.jobs.jobs.rows = q.jobs.jobs.rows ++ new ∧
        new.length ≤ (queuedTasks q.tasks 500).length) ∧
      ((q.tasks.tasks.rows.filter (·.status = .queued)).length ≤ 500 →
        ∀ k t, q'.tasks.task? k = some t → t.status = .queued → Recovered q' k) := by
  have hwaiting : Waiting depth q (queuedTasks q.tasks 500) := by
    refine ⟨queuedTasks_distinct q.tasks 500, fun t ht => (mem_queuedTasks ht).1,
      fun t ht => (mem_queuedTasks ht).2, fun t ht i hi => ?_,
      fun t _ => exists_free_generation hdepth t.taskId t.runGeneration⟩
    have hsmall := hgeneration t (Table.mem_of_find? (mem_queuedTasks ht).1)
    have hless : (t.runGeneration + i).natAbs < 2 ^ 63 := by omega
    exact hless.trans (writable_of_stored (by decide))
  obtain ⟨n, q', hrun, hrecovered, hothers, hrows⟩ :=
    recoverTasks_spec hfloat hticks 0 hwaiting hq
  rw [Nat.zero_add] at hrun
  refine ⟨n, q', hrun, hrecovered, hothers, hrows, fun hfew k t ht hqueued => ?_⟩
  by_cases hselected : k ∈ (queuedTasks q.tasks 500).map AgentTask.taskId
  · obtain ⟨u, hu, rfl⟩ := List.mem_map.1 hselected
    exact hrecovered u hu
  · rw [hothers k hselected] at ht
    obtain ⟨hmem, hkey⟩ := Table.find?_eq_some.1 ht
    exact absurd (hkey ▸ List.mem_map_of_mem (mem_queuedTasks_of_few hfew hmem hqueued)) hselected

end Run

section Sample

def orphanedTask : TaskRequest where
  ownerId := "owner"
  sourceInterface := "local"
  submissionId := "s1"
  goal := "Summarize the notes."
  title := []
  sessionId := none
  workspaceRef := "w1"
  budgetSeconds := 60000000
  modelDecisions := 10
  capabilityCalls := 10

def sampleTicks (n : Nat) : Tick where
  now := ⟨1000000, second_lt_maxMicros⟩
  jobId := List.replicate n 0x62

theorem freshTicks_sampleTicks : FreshTicks sampleTicks where
  distinct m n h := by
    have hlength := congrArg List.length h
    simpa only [sampleTicks, List.length_replicate] using hlength
  encodable n := by
    refine List.all_eq_true.2 fun c hc => ?_
    rw [List.eq_of_mem_replicate hc]
    decide

/-- A queued task whose job was cancelled. -/
def orphanedQueue : Queue where
  tasks := (createTask orphanedTask "t1" ⟨0, zero_lt_maxMicros⟩).commit TaskDb.empty
  jobs := @Jobs.ledgerAfter asciiText
    [.enqueueJob
      { jobId := "j1", jobType := agentTaskJob, aggregateId := "t1", payload := []
        idempotencyKey := jobKey "t1" 1 } ⟨0, zero_lt_maxMicros⟩,
      .requestCancel "j1" ⟨0, zero_lt_maxMicros⟩]

theorem recoverable_orphanedQueue : Recoverable sampleTicks 0 orphanedQueue := by
  have hchecked : (∀ t ∈ orphanedQueue.tasks.tasks.rows, encodable t.taskId = true) ∧
      ∀ r ∈ orphanedQueue.jobs.jobs.rows, encodable r.jobId = true ∧
        approvalJobFields r.jobType = none ∧ r.jobId.head? = some 0x6A := by
    decide +kernel
  obtain ⟨htasks, hjobs⟩ := hchecked
  refine ⟨fun k t ht => ?_, fun j r hr => ?_, fun m _ => ?_⟩
  · exact Table.key_of_find? ht ▸ htasks t (Table.mem_of_find? ht)
  · obtain ⟨hid, hplain, -⟩ := hjobs r (Table.mem_of_find? hr)
    refine ⟨hid, fun happroval => ?_⟩
    rw [hplain] at happroval
    cases happroval
  · refine Table.find?_eq_none.2 fun r hr hid => ?_
    have hhead := (hjobs r hr).2.2
    rw [hid] at hhead
    cases m with
    | zero => cases hhead
    | succ m => exact absurd hhead (by decide : some (0x62 : CodePoint) ≠ some 0x6A)

theorem queue_recovery_orphanedQueue : ∃ n q',
    @recoverQueued asciiText sampleTicks 3 orphanedQueue = (.ok 1, n, q') ∧
      Recovered q' "t1" := by
  have hchecked : (orphanedQueue.jobs.jobs.rows.length < 3 ∧
      (queuedTasks orphanedQueue.tasks 500).map AgentTask.taskId = [text "t1"]) ∧
      ∀ t ∈ orphanedQueue.tasks.tasks.rows, t.runGeneration.natAbs + 3 < 2 ^ 63 := by
    decide +kernel
  obtain ⟨⟨hdepth, hids⟩, hgeneration⟩ := hchecked
  have hfloat (bits : BitVec 64) : isAscii (@PythonText.floatRepr asciiText bits) = true :=
    (by decide : isAscii (text "nan") = true)
  obtain ⟨n, q', hrun, hrecovered, -⟩ := @queue_recovery sampleTicks orphanedQueue asciiText hfloat
    freshTicks_sampleTicks recoverable_orphanedQueue 3 hdepth hgeneration
  have hone : (queuedTasks orphanedQueue.tasks 500).length = 1 := by
    rw [← List.length_map AgentTask.taskId, hids]
    rfl
  have hmem : text "t1" ∈ (queuedTasks orphanedQueue.tasks 500).map AgentTask.taskId := by
    rw [hids]
    exact List.mem_singleton_self _
  obtain ⟨t, ht, hid⟩ := List.mem_map.1 hmem
  rw [hone] at hrun
  exact ⟨n, q', hrun, hid ▸ hrecovered t ht⟩

end Sample

end HardyAI.Tasks
