import HardyAI.Tasks.ScriptRunFences

/-! Whole runs of the code runner: what is recorded stays, and what is executed is what was
recorded. -/

open Foundation Foundation.Program Foundation.Machine Foundation.Trace

namespace HardyAI.Tasks.CodeRunner

section Runs

variable {s : System} {e : Event} {es : List Event} {i : Nat} {env : Env} {worker : Nat}
  {history : History Op.Reply} {op : Op}

def holdsOf (s : System) (j : Nat) : Option Hold := held ((history? s j).getD [])

theorem holdsOf_of_pending (hpending : pending? s i = some (worker, history, op)) :
    holdsOf s i = held history := by
  rw [holdsOf, history?_of_pending hpending, Option.getD_some]

theorem holdsOf_serve (hpending : pending? s i = some (worker, history, op)) :
    holdsOf (runnerMachine.serve s i env) = Function.update (holdsOf s) i
      (track (holdsOf s i) ⟨op, (exec env op s.state).1⟩) := by
  funext j
  rw [holdsOf, history?_serve (fun _ => rfl) hpending]
  by_cases hj : j = i
  · subst hj
    rw [if_pos rfl, Function.update_self, Option.getD_some, held_concat, holdsOf_of_pending hpending]
    rfl
  · rw [if_neg hj, Function.update_of_ne hj, holdsOf]

/-- What is kept in a fenced run. -/
structure Ordered (s : System) : Prop where
  steady : Steady s.state s.log (holdsOf s)
  numbered : Numbered s
  follows : ∀ t ∈ s.threads, Follows Allowed s.log t

theorem conforms_program (c : Call) :
    Conforms Allowed (fun h x => ∀ u, x = .ok u → ∃ answer, Ends c h (.ok answer)) []
      (runnerMachine.program c) :=
  (conforms_run c).bind (fun _ answer _ hends _ _ => ⟨answer, hends⟩) fun _ _ _ _ => nofun

theorem ordered_step (h : Ordered s) (hfenced : Fenced s e) : Ordered (runnerMachine.step s e) := by
  refine ⟨?_, h.numbered.step (fun _ => rfl) e, ?_⟩
  · cases e with
    | outside o => exact o.elim
    | start c =>
      have hholds : holdsOf (runnerMachine.step s (.start c)) = holdsOf s :=
        funext fun j => congrArg held (history?_start c j)
      rw [hholds]
      exact h.steady
    | step i env =>
      cases hpending : pending? s i with
      | none =>
        rw [Machine.step, serve_of_idle hpending]
        exact h.steady
      | some p =>
        obtain ⟨worker, history, op⟩ := p
        obtain rfl := h.numbered.worker hpending
        obtain ⟨hstate, hlog⟩ : (runnerMachine.serve s worker env).state = (exec env op s.state).2 ∧
            (runnerMachine.serve s worker env).log =
              s.log ++ [.ran worker op (exec env op s.state).1] := serve_of_pending hpending
        have hsteady : SteadyAfter env worker op s.state s.log (holdsOf s) :=
          steady_exec h.steady (holdsOf_of_pending hpending).symm
            (Follows.allowed h.follows hpending).1 (hfenced _ hpending)
        rw [Machine.step, holdsOf_serve hpending, hstate, hlog]
        exact hsteady
  · refine step_follows (fun c => (conforms_program c).safe) (fun _ _ a => a.elim) e h.follows

theorem ordered_start : Ordered (systemAfter []) := by
  have hnone : ∀ i x, holdsOf (systemAfter []) i ≠ some x := by
    intro i x hx
    cases hx
  have hunwritten : ∀ runId source, ¬ Wrote (systemAfter []).log runId source := by
    rintro runId source ⟨entry, hentry, -⟩
    cases hentry
  refine ⟨⟨⟨?_, ?_, ?_, ?_, ?_, ?_⟩, ?_⟩, ?_, ?_⟩
  · exact fun i x hx => absurd hx (hnone i x)
  · exact fun i _ x _ hx => absurd hx (hnone i x)
  · exact fun runId source hwrote => absurd hwrote (hunwritten runId source)
  · exact fun runId source hwrote => absurd hwrote (hunwritten runId source)
  · exact fun i x hx => absurd hx (hnone i x)
  · intro p hp
    cases hp
  · exact fun i x hx => absurd hx (hnone i x)
  · intro i t ht
    cases ht
  · intro t ht
    cases ht

/-- What a request does to the rows. -/
theorem runs_exec_cases (env : Env) (op : Op) (store : Store) :
    (exec env op store).2.runs = store.runs ∨
    (∃ a row, op = .createScriptRun a ∧ store.runs.insert? row = some (exec env op store).2.runs) ∨
    (∃ runId, op = .markScriptRunning runId ∧
      (exec env op store).2.runs = markScriptRunning runId env.now store.runs) ∨
    ∃ runId r, op = .finishScriptRun runId r ∧ (exec env op store).2.runs =
      store.runs.update (fun row => row.runId = runId) (endScript r env.now) := by
  cases op with
  | ensureWorkspace _ | makeDirectories _ | protectSource _ | awaitContainer _
  | publishedArtifacts _ _ | getTask _ => exact .inl (congrArg Store.runs (respond_snd ..))
  | openSource runId =>
    cases hsource : store.sources runId with
    | some old => exact .inl (by rw [exec, openSource, hsource])
    | none =>
      refine .inl ?_
      rcases respond_cases env () store
        { store with sources := Function.update store.sources runId (some []) } with
        ⟨e, hreply⟩ | ⟨-, hreply⟩ <;> simp only [exec, openSource, hsource, hreply]
  | writeSource runId source =>
    rw [exec, writeSource]
    cases env.raises <;> exact .inl rfl
  | launch taskId runId ref =>
    cases hsource : store.sources runId with
    | none => exact .inl (by rw [exec, launch, hsource])
    | some source =>
      refine .inl ?_
      rcases respond_cases env () store
        { store with executions := (runId, source) :: store.executions } with
        ⟨e, hreply⟩ | ⟨-, hreply⟩ <;> simp only [exec, launch, hsource, hreply]
  | markScriptRunning runId =>
    rw [exec]
    rcases respond_cases env () store
      { store with runs := markScriptRunning runId env.now store.runs } with
      ⟨e, hreply⟩ | ⟨-, hreply⟩
    · exact .inl (by rw [hreply])
    · exact .inr (.inr (.inl ⟨runId, rfl, by rw [hreply]⟩))
  | createScriptRun a =>
    rw [exec]
    rcases respondTo_cases env (createScriptRun env.freshId env.now a) store with
      ⟨e, hreply⟩ | ⟨⟨row, created⟩, runs, hcreate, hreply⟩
    · exact .inl (by rw [hreply])
    · rw [hreply]
      obtain ⟨-, ⟨-, -, hsame⟩ | ⟨-, -, hinsert⟩⟩ := createScriptRun_cases hcreate
      · exact .inl hsame
      · exact .inr (.inl ⟨a, row, rfl, hinsert⟩)
  | finishScriptRun runId r =>
    rw [exec]
    rcases respondTo_cases env (finishScriptRun runId env.now r) store with
      ⟨e, hreply⟩ | ⟨persisted, runs, hfinish, hreply⟩
    · exact .inl (by rw [hreply])
    · exact .inr (.inr (.inr ⟨runId, r, rfl, by rw [hreply, finishScriptRun_eq_ok hfinish]⟩))

theorem mem_update_of_not {t : ScriptTable} {g : ScriptRun → Bool}
    {f : Table.Assignment ScriptRun.runId} {row : ScriptRun} (hrow : row ∈ t.rows)
    (hg : g row = false) : row ∈ (t.update g f).rows :=
  List.mem_map.2 ⟨row, hrow, by rw [hg, if_neg Bool.false_ne_true]⟩

/-- The rows that are recorded stay as they are. -/
theorem recorded_exec {store : Store} {log : List Entry} {holds : Nat → Option Hold}
    (h : Steady store log holds) (hheld : held history = holds i) (hallowed : Allowed history op)
    (hfenced : FencedOp store log i op) {row : ScriptRun} (hrow : row ∈ store.runs.rows)
    (hrecorded : row.status.recorded = true) : row ∈ (exec env op store).2.runs.rows := by
  rcases runs_exec_cases env op store with
    hsame | ⟨a, new, -, hinsert⟩ | ⟨runId, -, hmark⟩ | ⟨runId, r, rfl, hfinish⟩
  · rwa [hsame]
  · exact (Table.mem_insert? hinsert).2 (.inl hrow)
  · rw [hmark, markScriptRunning]
    refine mem_update_of_not hrow ?_
    cases hstatus : row.status with
    | prepared | running | interrupted | diverged =>
      rw [hstatus] at hrecorded
      cases hrecorded
    | completed | failed | timedOut => simp
  · obtain ⟨x, hx, hrun, hstage⟩ := hallowed
    rw [hheld] at hx
    rw [hfinish]
    refine mem_update_of_not hrow ?_
    rw [decide_eq_false_iff_not]
    rintro rfl
    have hrunning : x.stage ≠ .ended := by
      rw [hstage]
      exact fun hended => by cases hended
    have hopen := h.opened i x hx hrunning (by rw [hrun]; exact hfenced) row
      (by rw [hrun]; exact Table.find?_of_mem hrow)
    rw [hrecorded] at hopen
    cases hopen

/-- What is promised of one step: a call is handed the row of its task, its logical run and its
source, and where the launcher does not fail it starts a source with the digest of that row. -/
structure Faithful (s : System) (e : Event) : Prop where
  recorded : ∀ row ∈ s.state.runs.rows, row.status.recorded = true →
    row ∈ (runnerMachine.step s e).state.runs.rows
  handed : ∀ i env worker history a row created, e = .step i env →
    pending? s i = some (worker, history, .createScriptRun a) →
    (exec env (.createScriptRun a) s.state).1 = .ok (row, created) →
      Recorded row a ∧ (created = false → row ∈ s.state.runs.rows)
  launched : ∀ i env worker history taskId runId ref, e = .step i env →
    pending? s i = some (worker, history, .launch taskId runId ref) → env.raises = none →
      ∃ x source row, held history = some x ∧ x.row.runId = runId ∧
        s.state.runs.find? runId = some row ∧ Recorded row x.args ∧
        Skills.digest source = .ok row.sourceSha256 ∧
        (runnerMachine.step s e).state.executions = (runId, source) :: s.state.executions

theorem faithful_step (h : Ordered s) (hfenced : Fenced s e) : Faithful s e := by
  refine ⟨?_, ?_, ?_⟩
  · intro row hrow hrecorded
    cases e with
    | outside o => exact o.elim
    | start c => exact hrow
    | step i env =>
      cases hpending : pending? s i with
      | none =>
        rw [Machine.step, serve_of_idle hpending]
        exact hrow
      | some p =>
        obtain ⟨worker, history, op⟩ := p
        rw [Machine.step, (serve_of_pending hpending).1]
        exact recorded_exec h.steady (holdsOf_of_pending hpending).symm
          (Follows.allowed h.follows hpending).1 (hfenced _ hpending) hrow hrecorded
  · rintro i env worker history a row created rfl hpending hreply
    rcases respondTo_cases env (createScriptRun env.freshId env.now a) s.state with
      ⟨e, herror⟩ | ⟨⟨row', created'⟩, runs, hcreate, hok⟩
    · rw [exec, herror] at hreply
      cases hreply
    · rw [exec, hok] at hreply
      cases hreply
      obtain ⟨hrecorded, ⟨-, hmem, -⟩ | ⟨hcreated, -, -⟩⟩ := createScriptRun_cases hcreate
      · exact ⟨hrecorded, fun _ => hmem⟩
      · refine ⟨hrecorded, fun hfalse => ?_⟩
        rw [hcreated] at hfalse
        cases hfalse
  · rintro i env worker history taskId runId ref rfl hpending hraises
    obtain ⟨x, hx, hrun, hstage⟩ := (Follows.allowed h.follows hpending).1
    have hheld : holdsOf s i = some x := (holdsOf_of_pending hpending).trans hx
    obtain ⟨source, row, hsource, hfind, hrecorded, hdigest⟩ := h.steady.ready hheld hstage
    subst hrun
    refine ⟨x, source, row, hx, rfl, hfind, hrecorded, hdigest, ?_⟩
    rw [Machine.step, (serve_of_pending hpending).1]
    show (exec env (.launch taskId x.row.runId ref) s.state).2.executions = _
    simp only [exec, launch, hsource, respond, hraises]

/-- What is promised of a run: what is recorded stays, every execution is of a recorded source, and
each call that has returned has refused its source, replays what is recorded or has asked the
launcher for the run. -/
structure Settled (es : List Event) : Prop where
  recorded : ∀ pre post, es = pre ++ post → ∀ row ∈ (systemAfter pre).state.runs.rows,
    row.status.recorded = true → row ∈ (systemAfter es).state.runs.rows
  steps : ∀ pre e post, es = pre ++ e :: post → Faithful (systemAfter pre) e
  executed : ∀ p ∈ (systemAfter es).state.executions,
    Sourced (systemAfter es).state.runs p.1 p.2
  ended : ∀ (i : Nat) (c : Call) (t : Thread Op.Reply), (started es)[i]? = some c → (systemAfter es).threads[i]? = some t →
    t.rest = .pure () → ∃ answer, Ends c t.history (.ok answer)

def FencedRun (es : List Event) : Prop :=
  ∀ pre e post, es = pre ++ e :: post → Fenced (systemAfter pre) e

theorem ordered_after (hfenced : FencedRun es) : Ordered (systemAfter es) :=
  run_invariant_of_forall (fun _ _ hok hs => ordered_step hs hok) ordered_start es hfenced

theorem recorded_extends {pre post : List Event}
    (hsteps : ∀ a e b, pre ++ post = a ++ e :: b → Faithful (systemAfter a) e) :
    ∀ row ∈ (systemAfter pre).state.runs.rows, row.status.recorded = true →
      row ∈ (systemAfter (pre ++ post)).state.runs.rows := by
  intro row hrow hrecorded
  induction post using List.reverseRecOn with
  | nil => rwa [List.append_nil]
  | append_singleton post e ih =>
    have hlast := hsteps (pre ++ post) e [] (by rw [List.append_assoc])
    have hbefore := ih fun a e' b hsplit =>
      hsteps a e' (b ++ [e]) (by rw [← List.append_assoc, hsplit, List.append_assoc]; rfl)
    have hafter := hlast.recorded row hbefore hrecorded
    rw [← List.append_assoc, systemAfter, run_concat]
    exact hafter

theorem settled_of_fenced (hfenced : FencedRun es) : Settled es := by
  have hsteps : ∀ pre e post, es = pre ++ e :: post → Faithful (systemAfter pre) e := by
    intro pre e post hsplit
    refine faithful_step (ordered_after fun pre' e' post' hsplit' => ?_) (hfenced pre e post hsplit)
    exact hfenced pre' e' (post' ++ e :: post) (by rw [hsplit, hsplit', List.append_assoc]; rfl)
  refine ⟨?_, hsteps, (ordered_after hfenced).steady.agreed.executed, ?_⟩
  · rintro pre post rfl
    exact recorded_extends hsteps
  · intro i c t hc ht hrest
    have hconforms := (run_keeping (fun _ => rfl) conforms_program _ es).conforms i c t hc ht
    rw [hrest] at hconforms
    exact hconforms () rfl

end Runs

section Samples

def sampleCall : Call where
  taskId := text "t1"
  ownerId := text "o1"
  workspaceRef := text "w1"
  logicalRunId := text "main"
  source := text "print(1)"
  expectedSteeringRevision := 1
  maxSourceChars := 20000

/-- Nothing raises, and the container ends well. -/
def sampleEnv : Env where
  raises := none
  written := 0
  freshId := text "r1"
  now := text "2026-01-01T00:00:00+00:00"
  result := ⟨true, some 0, false, [], []⟩
  artifacts := []
  boundary := some ⟨.running, 1⟩

def isFenced (s : System) : Event → Bool
  | .step i _ =>
    match pending? s i with
    | some (_, _, .createScriptRun a) => s.state.runs.rows.all fun row =>
      !(decide (row.taskId = a.taskId) && decide (row.logicalRunId = a.logicalRunId)) ||
        row.status.recorded || s.log.any fun entry => (writes row.runId entry).isSome
    | some (_, _, .finishScriptRun runId _) => latest s.log runId = some i
    | some _ | none => true
  | .start _ | .outside _ => true

theorem fenced_of_isFenced {s : System} {e : Event} (h : isFenced s e = true) : Fenced s e := by
  cases e with
  | start c => trivial
  | outside o => trivial
  | step i env =>
    rintro ⟨worker, history, op⟩ hp
    rw [isFenced, Option.mem_def.1 hp] at h
    cases op with
    | createScriptRun a =>
      intro row hrow hrecorded hopen
      have hall := List.all_eq_true.1 h row hrow
      simp only [hrecorded.1, hrecorded.2.1, hopen, decide_true, Bool.and_self, Bool.not_true,
        Bool.or_self, Bool.false_or, List.any_eq_true] at hall
      exact hall
    | finishScriptRun runId r =>
      have hlatest : latest s.log runId = some i := of_decide_eq_true h
      exact hlatest
    | ensureWorkspace _ | makeDirectories _ | openSource _ | writeSource _ _ | protectSource _
    | markScriptRunning _ | launch _ _ _ | awaitContainer _ | publishedArtifacts _ _ | getTask _ =>
      trivial

def allFenced : System → List Event → Bool
  | _, [] => true
  | s, e :: es => isFenced s e && allFenced (runnerMachine.step s e) es

theorem along_of_allFenced {s : System} {es : List Event} (h : allFenced s es = true) :
    Along runnerMachine.step Fenced s es := by
  induction es generalizing s with
  | nil => trivial
  | cons e es ih =>
    rw [allFenced, Bool.and_eq_true] at h
    exact ⟨fenced_of_isFenced h.1, ih h.2⟩

/-- A call that runs to its end, and a later one that replays it. -/
def replayedRun : List Event :=
  .start sampleCall :: List.replicate 12 (.step 0 sampleEnv) ++
    .start sampleCall :: List.replicate 3 (.step 1 sampleEnv)

theorem settled_of_fenced_replayed : Settled replayedRun :=
  settled_of_fenced (along_of_allFenced (by decide +kernel)).split

def launching (s : System) (i : Nat) : Bool :=
  match pending? s i with
  | some (_, _, .launch ..) => true
  | some _ | none => false

theorem executions_of_launching {s : System} {i : Nat} {env : Env} (h : Faithful s (.step i env))
    (hraises : env.raises = none) (hlaunching : launching s i = true) :
    (runnerMachine.step s (.step i env)).state.executions.length =
      s.state.executions.length + 1 := by
  unfold launching at hlaunching
  split at hlaunching
  · next worker history taskId runId ref hpending =>
    obtain ⟨x, source, row, -, -, -, -, -, hexecutions⟩ :=
      h.launched i env worker history taskId runId ref rfl hpending hraises
    rw [hexecutions, List.length_cons]
  · cases hlaunching
  · cases hlaunching

/-- The first call crashes after its row is created, and the second one comes to the launcher. -/
def crashedRun : List Event :=
  .start sampleCall :: List.replicate 2 (.step 0 sampleEnv) ++
    .start sampleCall :: List.replicate 4 (.step 1 sampleEnv)

theorem crashed_run_never_executed : ¬ ∀ es, Settled es := by
  intro h
  have hfaithful := (h (crashedRun ++ [.step 1 sampleEnv])).steps crashedRun _ [] rfl
  have hlength := executions_of_launching hfaithful rfl (by decide +kernel)
  revert hlength
  decide +kernel

end Samples

end HardyAI.Tasks.CodeRunner
