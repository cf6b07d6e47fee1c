import HardyAI.Tasks.ScriptRunCalls

/-! Script runs under crashes and overtaken calls: where a call is handed a run only after its
source has been written, and ends a run only where no later call has been handed it. -/

open Foundation Foundation.Program Foundation.Machine Foundation.Trace

namespace HardyAI.Tasks.CodeRunner

section Logs

/-- The call that an entry hands a run to. -/
def handedTo (runId : Str) : Entry → Option Nat
  | .ran worker (.createScriptRun _) (.ok (row, _)) => if row.runId = runId then some worker else none
  | _ => none

/-- The latest call that the run has been handed to. -/
def latest (log : List Entry) (runId : Str) : Option Nat := (log.filterMap (handedTo runId)).getLast?

def writes (runId : Str) : Entry → Option Str
  | .ran _ (.writeSource written source) (.ok ()) => if written = runId then some source else none
  | _ => none

/-- The source of the run has been written to its end. -/
def Wrote (log : List Entry) (runId source : Str) : Prop :=
  ∃ entry ∈ log, writes runId entry = some source

variable {log : List Entry} {entry : Entry} {runId source : Str} {i : Nat}

theorem latest_concat (log : List Entry) (entry : Entry) (runId : Str) :
    latest (log ++ [entry]) runId = (handedTo runId entry).or (latest log runId) := by
  rw [latest, List.filterMap_append, List.getLast?_append]
  cases hhanded : handedTo runId entry with
  | none =>
    rw [List.filterMap_cons_none hhanded]
    rfl
  | some j =>
    rw [List.filterMap_cons_some hhanded]
    rfl

theorem latest_concat_of_none (h : handedTo runId entry = none) :
    latest (log ++ [entry]) runId = latest log runId := by
  rw [latest_concat, h, Option.none_or]

theorem wrote_concat : Wrote (log ++ [entry]) runId source ↔
    Wrote log runId source ∨ writes runId entry = some source := by
  simp only [Wrote, List.mem_append, List.mem_singleton, or_and_right, exists_or, exists_eq_left]

end Logs

section Fences

/-- The row is that of the task, the logical run and the source of the request. -/
def Recorded (row : ScriptRun) (a : CreateScriptArgs) : Prop :=
  row.taskId = a.taskId ∧ row.logicalRunId = a.logicalRunId ∧
    Skills.digest a.source = .ok row.sourceSha256

/-- No run that is still open is handed out before its source has been written, and a call ends
only a run that has not been handed to a later one. -/
def FencedOp (store : Store) (log : List Entry) (i : Nat) : Op → Prop
  | .createScriptRun a => ∀ row ∈ store.runs.rows, Recorded row a → row.status.recorded = false →
      ∃ entry ∈ log, (writes row.runId entry).isSome = true
  | .finishScriptRun runId _ => latest log runId = some i
  | .ensureWorkspace _ | .makeDirectories _ | .openSource _ | .writeSource .. | .protectSource _
  | .markScriptRunning _ | .launch .. | .awaitContainer _ | .publishedArtifacts .. | .getTask _ => True

def Fenced (s : System) : Event → Prop
  | .step i _ => ∀ p ∈ pending? s i, FencedOp s.state s.log i p.2.2
  | .start _ | .outside _ => True

end Fences

section Agreement

/-- The rows of a table are still there and belong to what they belonged to. -/
def Keeps (t t' : ScriptTable) : Prop :=
  ∀ k row, t.find? k = some row → ∃ row', t'.find? k = some row' ∧ row'.taskId = row.taskId ∧
    row'.logicalRunId = row.logicalRunId ∧ row'.sourceSha256 = row.sourceSha256

/-- The run has a row with the digest of the source. -/
def Sourced (t : ScriptTable) (runId source : Str) : Prop :=
  ∃ row, t.find? runId = some row ∧ Skills.digest source = .ok row.sourceSha256

/-- What the store, the log and what each call holds say of one another. -/
structure Agreed (store : Store) (log : List Entry) (holds : Nat → Option Hold) : Prop where
  known : ∀ i x, holds i = some x →
    ∃ row, store.runs.find? x.row.runId = some row ∧ Recorded row x.args
  maker : ∀ i j x y, holds i = some x → holds j = some y → x.row.runId = y.row.runId →
    x.stage = .making → y.stage = .making → i = j
  kept : ∀ runId source, Wrote log runId source →
    store.sources runId = some source ∧ Sourced store.runs runId source
  made : ∀ runId source, Wrote log runId source →
    ∀ i x, holds i = some x → x.row.runId = runId → x.stage ≠ .making
  written : ∀ i x, holds i = some x → x.stage = .ready → ∃ source, Wrote log x.row.runId source
  executed : ∀ p ∈ store.executions, Sourced store.runs p.1 p.2

/-- A run is open as long as the call that it has been handed to last is not done with it. -/
def Opened (store : Store) (log : List Entry) (holds : Nat → Option Hold) : Prop :=
  ∀ i x, holds i = some x → x.stage ≠ .ended → latest log x.row.runId = some i →
    ∀ row, store.runs.find? x.row.runId = some row → row.status.recorded = false

variable {t t' : ScriptTable} {store store' : Store} {log : List Entry} {entry : Entry}
  {holds holds' : Nat → Option Hold} {i : Nat} {x : Hold} {runId source sha : Str}
  {a : CreateScriptArgs} {row : ScriptRun}

theorem Keeps.refl (t : ScriptTable) : Keeps t t := fun _ row hfind => ⟨row, hfind, rfl, rfl, rfl⟩

theorem keeps_update {g : ScriptRun → Bool} {f : Table.Assignment ScriptRun.runId}
    (htask : ∀ row, (f.apply row).taskId = row.taskId)
    (hlogical : ∀ row, (f.apply row).logicalRunId = row.logicalRunId)
    (hsha : ∀ row, (f.apply row).sourceSha256 = row.sourceSha256) : Keeps t (t.update g f) := by
  intro k row hfind
  refine ⟨if g row then f.apply row else row, ?_, ?_⟩
  · rw [Table.find?_update, hfind, Option.map_some]
  · split
    · exact ⟨htask row, hlogical row, hsha row⟩
    · exact ⟨rfl, rfl, rfl⟩

theorem keeps_insert (h : t.insert? row = some t') : Keeps t t' := by
  intro k old hfind
  refine ⟨old, ?_, rfl, rfl, rfl⟩
  rw [Table.find?_insert? h, if_neg, hfind]
  rintro rfl
  rw [(Table.insert?_eq_some h).1] at hfind
  cases hfind

theorem Sourced.keep (h : Sourced t runId source) (hkeeps : Keeps t t') :
    Sourced t' runId source := by
  obtain ⟨row, hfind, hdigest⟩ := h
  obtain ⟨row', hfind', -, -, hsha⟩ := hkeeps runId row hfind
  exact ⟨row', hfind', by rw [hsha, hdigest]⟩

theorem known_keep (h : ∃ row, t.find? runId = some row ∧ Recorded row a) (hkeeps : Keeps t t') :
    ∃ row, t'.find? runId = some row ∧ Recorded row a := by
  obtain ⟨row, hfind, htask, hlogical, hdigest⟩ := h
  obtain ⟨row', hfind', htask', hlogical', hsha⟩ := hkeeps runId row hfind
  exact ⟨row', hfind', htask'.trans htask, hlogical'.trans hlogical, by rw [hsha, hdigest]⟩

/-- The calls hold what they have held, and some of them are further on. -/
def Further (holds holds' : Nat → Option Hold) : Prop :=
  ∀ i y, holds' i = some y → ∃ x, holds i = some x ∧ x.args = y.args ∧ x.row = y.row ∧
    (y.stage = x.stage ∨ y.stage = .torn ∨ y.stage = .ended)

theorem Further.refl (holds : Nat → Option Hold) : Further holds holds :=
  fun _ y hy => ⟨y, hy, rfl, rfl, .inl rfl⟩

theorem further_update (hx : holds i = some x) {stage : Stage}
    (hstage : stage = x.stage ∨ stage = .torn ∨ stage = .ended) :
    Further holds (Function.update holds i (some { x with stage })) := by
  intro j y hy
  by_cases hj : j = i
  · subst hj
    rw [Function.update_self] at hy
    cases hy
    exact ⟨x, hx, rfl, rfl, hstage⟩
  · rw [Function.update_of_ne hj] at hy
    exact ⟨y, hy, rfl, rfl, .inl rfl⟩

theorem Further.stage (h : Further holds holds') {j : Nat} {y : Hold} (hy : holds' j = some y)
    {stage : Stage} (hstage : y.stage = stage) (htorn : stage ≠ .torn) (hended : stage ≠ .ended) :
    ∃ x, holds j = some x ∧ x.row = y.row ∧ x.stage = stage := by
  obtain ⟨x, hx, -, hrow, hsame | htorn' | hended'⟩ := h j y hy
  · exact ⟨x, hx, hrow, hsame.symm.trans hstage⟩
  · exact absurd (hstage.symm.trans htorn') htorn
  · exact absurd (hstage.symm.trans hended') hended

/-- A request that completes no source and hands out no run that its call still has to make. -/
theorem Agreed.further (h : Agreed store log holds) (hwrites : ∀ runId, writes runId entry = none)
    (hkeeps : Keeps store.runs store'.runs)
    (hsources : ∀ runId source, Wrote log runId source →
      store'.sources runId = store.sources runId)
    (hexecuted : ∀ p ∈ store'.executions, p ∈ store.executions ∨ Sourced store.runs p.1 p.2)
    (hfurther : Further holds holds') : Agreed store' (log ++ [entry]) holds' where
  known j y hy := by
    obtain ⟨x, hx, hargs, hrow, -⟩ := hfurther j y hy
    rw [← hargs, ← hrow]
    exact known_keep (h.known j x hx) hkeeps
  maker j k y z hy hz hrun hmaking hmaking' := by
    obtain ⟨x, hx, hrow, hstage⟩ := hfurther.stage hy hmaking nofun nofun
    obtain ⟨x', hx', hrow', hstage'⟩ := hfurther.stage hz hmaking' nofun nofun
    exact h.maker j k x x' hx hx' (by rw [hrow, hrow', hrun]) hstage hstage'
  kept runId source hwrote := by
    rw [wrote_concat, hwrites, or_iff_left nofun] at hwrote
    obtain ⟨hsource, hsourced⟩ := h.kept runId source hwrote
    exact ⟨by rw [hsources runId source hwrote, hsource], hsourced.keep hkeeps⟩
  made runId source hwrote j y hy hrun hmaking := by
    rw [wrote_concat, hwrites, or_iff_left nofun] at hwrote
    obtain ⟨x, hx, hrow, hstage⟩ := hfurther.stage hy hmaking nofun nofun
    exact h.made runId source hwrote j x hx (by rw [hrow, hrun]) hstage
  written j y hy hready := by
    obtain ⟨x, hx, hrow, hstage⟩ := hfurther.stage hy hready nofun nofun
    obtain ⟨source, hwrote⟩ := h.written j x hx hstage
    rw [hrow] at hwrote
    exact ⟨source, wrote_concat.2 (.inl hwrote)⟩
  executed p hp := by
    rcases hexecuted p hp with hold | hnew
    · exact (h.executed p hold).keep hkeeps
    · exact hnew.keep hkeeps

/-- A call is handed an existing run. -/
theorem Agreed.found (h : Agreed store log holds) (hrow : row ∈ store.runs.rows)
    (hrecorded : Recorded row a)
    (hfenced : row.status.recorded = false → ∃ entry ∈ log, (writes row.runId entry).isSome = true)
    (hwrites : ∀ runId, writes runId entry = none) :
    Agreed store (log ++ [entry])
      (Function.update holds i (some ⟨a, row, .ofCreate row false⟩)) := by
  have hnotMaking : Stage.ofCreate row false ≠ .making := by
    cases hdone : row.status.recorded <;> simp [Stage.ofCreate, hdone]
  have hold : ∀ j y, Function.update holds i (some ⟨a, row, .ofCreate row false⟩) j = some y →
      (j = i ∧ y = ⟨a, row, .ofCreate row false⟩) ∨ holds j = some y := by
    intro j y hy
    by_cases hj : j = i
    · subst hj
      rw [Function.update_self] at hy
      exact .inl ⟨rfl, (Option.some.inj hy).symm⟩
    · rw [Function.update_of_ne hj] at hy
      exact .inr hy
  have hwrote : ∀ {runId source}, Wrote (log ++ [entry]) runId source ↔ Wrote log runId source := by
    intro runId source
    rw [wrote_concat, hwrites, or_iff_left (by simp)]
  refine ⟨?_, ?_, ?_, ?_, ?_, h.executed⟩
  · intro j y hy
    rcases hold j y hy with ⟨rfl, rfl⟩ | hy
    · exact ⟨row, Table.find?_of_mem hrow, hrecorded⟩
    · exact h.known j y hy
  · intro j k y z hy hz hrun hmaking hmaking'
    rcases hold j y hy with ⟨rfl, rfl⟩ | hy
    · exact absurd hmaking hnotMaking
    rcases hold k z hz with ⟨rfl, rfl⟩ | hz
    · exact absurd hmaking' hnotMaking
    exact h.maker j k y z hy hz hrun hmaking hmaking'
  · exact fun runId source hnew => h.kept runId source (hwrote.1 hnew)
  · intro runId source hnew j y hy hrun
    rcases hold j y hy with ⟨rfl, rfl⟩ | hy
    · exact hnotMaking
    · exact h.made runId source (hwrote.1 hnew) j y hy hrun
  · intro j y hy hready
    rcases hold j y hy with ⟨rfl, rfl⟩ | hy
    · have hopen : row.status.recorded = false := by
        rw [← Bool.not_eq_true]
        intro hdone
        simp [Stage.ofCreate, hdone] at hready
      obtain ⟨entry', hentry, hsome⟩ := hfenced hopen
      obtain ⟨source, hsource⟩ := Option.isSome_iff_exists.1 hsome
      exact ⟨source, hwrote.2 ⟨entry', hentry, hsource⟩⟩
    · obtain ⟨source, hold⟩ := h.written j y hy hready
      exact ⟨source, hwrote.2 hold⟩

/-- A call is handed a new run, which it has to make. -/
theorem Agreed.created (h : Agreed store log holds) (hinsert : store.runs.insert? row = some t')
    (hrecorded : Recorded row a) (hwrites : ∀ runId, writes runId entry = none) :
    Agreed { store with runs := t' } (log ++ [entry])
      (Function.update holds i (some ⟨a, row, .making⟩)) := by
  have hkeeps : Keeps store.runs t' := keeps_insert hinsert
  have hfresh : store.runs.find? row.runId = none := (Table.insert?_eq_some hinsert).1
  have hold : ∀ j y, Function.update holds i (some ⟨a, row, .making⟩) j = some y →
      (j = i ∧ y = ⟨a, row, .making⟩) ∨ holds j = some y ∧ y.row.runId ≠ row.runId := by
    intro j y hy
    by_cases hj : j = i
    · subst hj
      rw [Function.update_self] at hy
      exact .inl ⟨rfl, (Option.some.inj hy).symm⟩
    · rw [Function.update_of_ne hj] at hy
      refine .inr ⟨hy, fun hsame => ?_⟩
      obtain ⟨row', hfind, -⟩ := h.known j y hy
      rw [hsame, hfresh] at hfind
      cases hfind
  have hwrote : ∀ {runId source}, Wrote (log ++ [entry]) runId source ↔ Wrote log runId source := by
    intro runId source
    rw [wrote_concat, hwrites, or_iff_left nofun]
  refine ⟨?_, ?_, ?_, ?_, ?_, fun p hp => (h.executed p hp).keep hkeeps⟩
  · intro j y hy
    rcases hold j y hy with ⟨rfl, rfl⟩ | ⟨hy, -⟩
    · exact ⟨row, by rw [Table.find?_insert? hinsert, if_pos rfl], hrecorded⟩
    · exact known_keep (h.known j y hy) hkeeps
  · intro j k y z hy hz hrun hmaking hmaking'
    rcases hold j y hy with ⟨rfl, rfl⟩ | ⟨hy, hne⟩ <;> rcases hold k z hz with ⟨rfl, rfl⟩ | ⟨hz, hne'⟩
    · rfl
    · exact absurd hrun.symm hne'
    · exact absurd hrun hne
    · exact h.maker j k y z hy hz hrun hmaking hmaking'
  · intro runId source hnew
    obtain ⟨hsource, hsourced⟩ := h.kept runId source (hwrote.1 hnew)
    exact ⟨hsource, hsourced.keep hkeeps⟩
  · intro runId source hnew j y hy hrun
    rcases hold j y hy with ⟨rfl, rfl⟩ | ⟨hy, -⟩
    · obtain ⟨row', hfind, -⟩ := (h.kept runId source (hwrote.1 hnew)).2
      rw [← hrun, hfresh] at hfind
      cases hfind
    · exact h.made runId source (hwrote.1 hnew) j y hy hrun
  · intro j y hy hready
    rcases hold j y hy with ⟨rfl, rfl⟩ | ⟨hy, -⟩
    · cases hready
    · obtain ⟨source, hold⟩ := h.written j y hy hready
      exact ⟨source, hwrote.2 hold⟩

/-- The call that makes a run has written its source. -/
theorem Agreed.wrote (h : Agreed store log holds) (hx : holds i = some x)
    (hmaking : x.stage = .making) (hsource : x.args.source = source)
    (hwrites : ∀ runId, writes runId entry = if x.row.runId = runId then some source else none) :
    Agreed { store with sources := Function.update store.sources x.row.runId (some source) }
      (log ++ [entry]) (Function.update holds i (some { x with stage := .ready })) := by
  have hunwritten : ∀ {s}, ¬ Wrote log x.row.runId s :=
    fun hwrote => h.made _ _ hwrote i x hx rfl hmaking
  have hcases : ∀ {runId s}, Wrote (log ++ [entry]) runId s →
      (runId = x.row.runId ∧ s = source) ∨ (runId ≠ x.row.runId ∧ Wrote log runId s) := by
    intro runId s hwrote
    rw [wrote_concat, hwrites] at hwrote
    by_cases hrun : x.row.runId = runId
    · subst hrun
      rw [if_pos rfl, Option.some.injEq] at hwrote
      exact .inl ⟨rfl, (hwrote.resolve_left hunwritten).symm⟩
    · rw [if_neg hrun, or_iff_left nofun] at hwrote
      exact .inr ⟨Ne.symm hrun, hwrote⟩
  have hold : ∀ j y, Function.update holds i (some { x with stage := .ready }) j = some y →
      (j = i ∧ y = { x with stage := .ready }) ∨ j ≠ i ∧ holds j = some y := by
    intro j y hy
    by_cases hj : j = i
    · subst hj
      rw [Function.update_self] at hy
      exact .inl ⟨rfl, (Option.some.inj hy).symm⟩
    · rw [Function.update_of_ne hj] at hy
      exact .inr ⟨hj, hy⟩
  refine ⟨?_, ?_, ?_, ?_, ?_, h.executed⟩
  · intro j y hy
    rcases hold j y hy with ⟨rfl, rfl⟩ | ⟨-, hy⟩
    · exact h.known j x hx
    · exact h.known j y hy
  · intro j k y z hy hz hrun hmaking hmaking'
    rcases hold j y hy with ⟨rfl, rfl⟩ | ⟨-, hy⟩
    · cases hmaking
    rcases hold k z hz with ⟨rfl, rfl⟩ | ⟨-, hz⟩
    · cases hmaking'
    exact h.maker j k y z hy hz hrun hmaking hmaking'
  · intro runId s hwrote
    rcases hcases hwrote with ⟨rfl, rfl⟩ | ⟨hrun, hwrote⟩
    · obtain ⟨row, hfind, -, -, hdigest⟩ := h.known i x hx
      exact ⟨Function.update_self .., row, hfind, by rw [← hsource, hdigest]⟩
    · obtain ⟨hkept, hsourced⟩ := h.kept runId s hwrote
      exact ⟨(Function.update_of_ne hrun _ _).trans hkept, hsourced⟩
  · intro runId s hwrote j y hy hrun hmaking'
    rcases hold j y hy with ⟨rfl, rfl⟩ | ⟨hj, hy⟩
    · cases hmaking'
    rcases hcases hwrote with ⟨rfl, rfl⟩ | ⟨-, hwrote⟩
    · exact hj (h.maker j i y x hy hx hrun hmaking' hmaking)
    · exact h.made runId s hwrote j y hy hrun hmaking'
  · intro j y hy hready
    rcases hold j y hy with ⟨rfl, rfl⟩ | ⟨-, hy⟩
    · exact ⟨source, wrote_concat.2 (.inr (by rw [hwrites, if_pos rfl]))⟩
    · obtain ⟨s, hwrote⟩ := h.written j y hy hready
      exact ⟨s, wrote_concat.2 (.inl hwrote)⟩

end Agreement

section Openings

variable {store store' : Store} {log : List Entry} {entry : Entry} {holds holds' : Nat → Option Hold}
  {i : Nat} {x : Hold} {runId : Str} {a : CreateScriptArgs} {row : ScriptRun} {t' : ScriptTable}

/-- A request that hands out no run and records none that a call still works for. -/
theorem Opened.further (h : Opened store log holds) (hhanded : ∀ runId, handedTo runId entry = none)
    (hfurther : ∀ j y, holds' j = some y → y.stage ≠ .ended →
      ∃ x, holds j = some x ∧ x.row = y.row ∧ x.stage ≠ .ended)
    (hrows : ∀ j y row', holds' j = some y → y.stage ≠ .ended → latest log y.row.runId = some j →
      store'.runs.find? y.row.runId = some row' → row'.status.recorded = true →
      store.runs.find? y.row.runId = some row') : Opened store' (log ++ [entry]) holds' := by
  intro j y hy hstage hlatest row' hfind'
  obtain ⟨x, hx, hrow, hstage'⟩ := hfurther j y hy hstage
  rw [latest_concat_of_none (hhanded _)] at hlatest
  rw [← Bool.not_eq_true]
  intro hrecorded
  have hfind := hrows j y row' hy hstage hlatest hfind' hrecorded
  have hopen := h j x hx hstage' (by rw [hrow, hlatest]) row' (by rw [hrow, hfind])
  rw [hrecorded] at hopen
  cases hopen

theorem Opened.found (h : Opened store log holds) (hrow : row ∈ store.runs.rows)
    (hhanded : ∀ runId, handedTo runId entry = if row.runId = runId then some i else none) :
    Opened store (log ++ [entry])
      (Function.update holds i (some ⟨a, row, .ofCreate row false⟩)) := by
  intro j y hy hstage hlatest row' hfind
  rw [latest_concat, hhanded] at hlatest
  by_cases hj : j = i
  · subst hj
    rw [Function.update_self] at hy
    obtain rfl := Option.some.inj hy
    rw [Table.find?_of_mem hrow] at hfind
    obtain rfl := Option.some.inj hfind
    rw [← Bool.not_eq_true]
    intro hdone
    exact hstage (by simp [Stage.ofCreate, hdone])
  · rw [Function.update_of_ne hj] at hy
    by_cases hrun : row.runId = y.row.runId
    · rw [if_pos hrun, Option.some_or, Option.some.injEq] at hlatest
      exact absurd hlatest.symm hj
    · rw [if_neg hrun, Option.none_or] at hlatest
      exact h j y hy hstage hlatest row' hfind

theorem Opened.created (h : Opened store log holds) (hinsert : store.runs.insert? row = some t')
    (hstatus : row.status.recorded = false)
    (hhanded : ∀ runId, handedTo runId entry = if row.runId = runId then some i else none) :
    Opened { store with runs := t' } (log ++ [entry])
      (Function.update holds i (some ⟨a, row, .making⟩)) := by
  intro j y hy hstage hlatest row' hfind
  rw [latest_concat, hhanded] at hlatest
  have hrows := Table.find?_insert? hinsert y.row.runId
  by_cases hrun : row.runId = y.row.runId
  · rw [if_pos hrun] at hrows
    rw [hrows] at hfind
    obtain rfl := Option.some.inj hfind
    exact hstatus
  · rw [if_neg hrun] at hrows
    rw [hrows] at hfind
    rw [if_neg hrun, Option.none_or] at hlatest
    by_cases hj : j = i
    · subst hj
      rw [Function.update_self] at hy
      obtain rfl := Option.some.inj hy
      exact absurd rfl hrun
    · rw [Function.update_of_ne hj] at hy
      exact h j y hy hstage hlatest row' hfind

end Openings

section Requests

variable {α : Type} {env : Env} {store : Store} {log : List Entry} {holds : Nat → Option Hold}
  {i : Nat} {op : Op} {history : History Op.Reply}

theorem respond_cases (env : Env) (a : α) (s s' : Store) :
    (∃ e, respond env a s s' = (.error e, s)) ∨
      env.raises = none ∧ respond env a s s' = (.ok a, s') := by
  unfold respond
  cases env.raises with
  | none => exact .inr ⟨rfl, rfl⟩
  | some e => exact .inl ⟨e, rfl⟩

theorem respondTo_cases (env : Env) (t : Transaction ScriptTable α) (s : Store) :
    (∃ e, respondTo env t s = (.error e, s)) ∨
      ∃ a runs, t s.runs = .ok (a, runs) ∧ respondTo env t s = (.ok a, { s with runs }) := by
  unfold respondTo
  cases env.raises with
  | some e => exact .inl ⟨e, rfl⟩
  | none =>
    rcases ht : t s.runs with e | ⟨a, runs⟩
    · exact .inl ⟨e, by simp [Transaction.reply, Transaction.commit, ht, Except.map]⟩
    · exact .inr ⟨a, runs, rfl, by simp [Transaction.reply, Transaction.commit, ht, Except.map]⟩

theorem createScriptRun_cases {freshId now : Str} {a : CreateScriptArgs} {t t' : ScriptTable}
    {row : ScriptRun} {created : Bool}
    (h : createScriptRun freshId now a t = .ok ((row, created), t')) :
    Recorded row a ∧ ((created = false ∧ row ∈ t.rows ∧ t' = t) ∨
      created = true ∧ row.status.recorded = false ∧ t.insert? row = some t') := by
  unfold createScriptRun at h
  cases hsha : Skills.digest a.source with
  | error e =>
    rw [hsha] at h
    cases h
  | ok sha =>
    rw [hsha] at h
    dsimp only [Bind.bind, Except.bind] at h
    cases hfind : findScriptRun t a.taskId a.logicalRunId sha with
    | some found =>
      rw [hfind] at h
      cases h
      have hsame := List.find?_some hfind
      simp only [Bool.and_eq_true, decide_eq_true_eq] at hsame
      exact ⟨⟨hsame.1.1, hsame.1.2, by rw [hsha, hsame.2]⟩,
        .inl ⟨rfl, List.mem_of_find?_eq_some hfind, rfl⟩⟩
    | none =>
      rw [hfind] at h
      cases hinsert : t.insert? (freshScriptRun freshId now sha a) with
      | none =>
        simp only [hinsert] at h
        cases h
      | some inserted =>
        simp only [hinsert] at h
        cases h
        exact ⟨⟨rfl, rfl, hsha⟩, .inr ⟨rfl, rfl, hinsert⟩⟩

/-- What is kept between two requests. -/
structure Steady (store : Store) (log : List Entry) (holds : Nat → Option Hold) : Prop where
  agreed : Agreed store log holds
  opened : Opened store log holds

/-- The same after a request of thread `i`. -/
def SteadyAfter (env : Env) (i : Nat) (op : Op) (store : Store) (log : List Entry)
    (holds : Nat → Option Hold) : Prop :=
  Steady (exec env op store).2 (log ++ [.ran i op (exec env op store).1])
    (Function.update holds i (track (holds i) ⟨op, (exec env op store).1⟩))

theorem Steady.touched (h : Steady store log holds) {sources : Str → Option Str}
    {executions : List (Str × Str)}
    (hstate : (exec env op store).2 = { store with sources, executions })
    (hsources : ∀ runId source, Wrote log runId source → sources runId = store.sources runId)
    (hexecuted : ∀ p ∈ executions, p ∈ store.executions ∨ Sourced store.runs p.1 p.2)
    (htrack : track (holds i) ⟨op, (exec env op store).1⟩ = holds i)
    (hhanded : ∀ runId r, handedTo runId (.ran i op r) = none)
    (hwrites : ∀ runId r, writes runId (.ran i op r) = none) :
    SteadyAfter env i op store log holds := by
  rw [SteadyAfter, htrack, Function.update_eq_self, hstate]
  refine ⟨h.agreed.further (fun _ => hwrites _ _) (Keeps.refl _) hsources hexecuted (Further.refl _),
    h.opened.further (fun _ => hhanded _ _) (fun j y hy hstage => ⟨y, hy, rfl, hstage⟩) ?_⟩
  exact fun j y row' _ _ _ hfind _ => hfind

theorem Steady.unchanged (h : Steady store log holds) (hstate : (exec env op store).2 = store)
    (htrack : track (holds i) ⟨op, (exec env op store).1⟩ = holds i)
    (hhanded : ∀ runId r, handedTo runId (.ran i op r) = none)
    (hwrites : ∀ runId r, writes runId (.ran i op r) = none) :
    SteadyAfter env i op store log holds :=
  h.touched hstate (fun _ _ _ => rfl) (fun _ hp => .inl hp) htrack hhanded hwrites

theorem respond_snd (env : Env) (a : α) (s : Store) : (respond env a s s).2 = s := by
  unfold respond
  cases env.raises <;> rfl

theorem steady_openSource (h : Steady store log holds) {runId : Str} {x : Hold}
    (hx : holds i = some x) (hrun : x.row.runId = runId) (hstage : x.stage = .making) :
    SteadyAfter env i (.openSource runId) store log holds := by
  have htrack : ∀ r, track (holds i) ⟨.openSource runId, r⟩ = holds i := by
    intro r
    cases holds i <;> cases r <;> rfl
  have hunwritten : ∀ runId' source, Wrote log runId' source → runId' ≠ runId := by
    rintro runId' source hwrote rfl
    exact h.agreed.made _ _ hwrote i x hx hrun hstage
  cases hsource : store.sources runId with
  | some old =>
    have hstate : (exec env (.openSource runId) store).2 = store := by
      rw [exec, openSource, hsource]
    exact h.unchanged hstate (htrack _) (fun _ _ => rfl) fun _ _ => rfl
  | none =>
    have hexec : exec env (.openSource runId) store = respond env () store
        { store with sources := Function.update store.sources runId (some []) } := by
      rw [exec, openSource, hsource]
    rcases respond_cases env () store
      { store with sources := Function.update store.sources runId (some []) } with
      ⟨e, hreply⟩ | ⟨-, hreply⟩
    · exact h.unchanged (by rw [hexec, hreply]) (htrack _) (fun _ _ => rfl) fun _ _ => rfl
    · refine h.touched (by rw [hexec, hreply]) (fun runId' source hwrote => ?_)
        (fun p hp => .inl hp) (htrack _) (fun _ _ => rfl) fun _ _ => rfl
      exact Function.update_of_ne (hunwritten runId' source hwrote) _ _

theorem steady_writeSource (h : Steady store log holds) {runId source : Str} {x : Hold}
    (hx : holds i = some x) (hrun : x.row.runId = runId) (hstage : x.stage = .making)
    (hsource : x.args.source = source) :
    SteadyAfter env i (.writeSource runId source) store log holds := by
  subst hrun
  have hended : ∀ (stage : Stage) j y,
      Function.update holds i (some { x with stage }) j = some y → y.stage ≠ .ended →
      ∃ x', holds j = some x' ∧ x'.row = y.row ∧ x'.stage ≠ .ended := by
    intro stage j y hy hne
    by_cases hj : j = i
    · subst hj
      rw [Function.update_self] at hy
      cases hy
      exact ⟨x, hx, rfl, by rw [hstage]; nofun⟩
    · rw [Function.update_of_ne hj] at hy
      exact ⟨y, hy, rfl, hne⟩
  rw [SteadyAfter, exec, writeSource]
  cases env.raises with
  | some e =>
    have htrack : track (holds i) ⟨.writeSource x.row.runId source, .error e⟩ =
        some { x with stage := .torn } := by rw [hx]; rfl
    rw [htrack]
    refine ⟨h.agreed.further (fun _ => rfl) (Keeps.refl _) (fun runId' s hwrote => ?_)
      (fun p hp => .inl hp) (further_update hx (.inr (.inl rfl))), ?_⟩
    · refine Function.update_of_ne (fun hsame => ?_) _ _
      exact h.agreed.made _ _ hwrote i x hx hsame.symm hstage
    · exact h.opened.further (fun _ => rfl) (hended .torn) fun j y row' _ _ _ hfind _ => hfind
  | none =>
    have htrack : track (holds i) ⟨.writeSource x.row.runId source, .ok ()⟩ =
        some { x with stage := .ready } := by rw [hx]; rfl
    rw [htrack]
    exact ⟨h.agreed.wrote hx hstage hsource fun _ => rfl,
      h.opened.further (fun _ => rfl) (hended .ready) fun j y row' _ _ _ hfind _ => hfind⟩

theorem steady_markScriptRunning (h : Steady store log holds) {runId : Str} :
    SteadyAfter env i (.markScriptRunning runId) store log holds := by
  have htrack : ∀ r, track (holds i) ⟨.markScriptRunning runId, r⟩ = holds i := by
    intro r
    cases holds i <;> cases r <;> rfl
  rcases respond_cases env () store
    { store with runs := markScriptRunning runId env.now store.runs } with
    ⟨e, hreply⟩ | ⟨-, hreply⟩
  · have hstate : (exec env (.markScriptRunning runId) store).2 = store := by rw [exec, hreply]
    exact h.unchanged hstate (htrack _) (fun _ _ => rfl) fun _ _ => rfl
  · rw [SteadyAfter, htrack, Function.update_eq_self, exec, hreply]
    refine ⟨h.agreed.further (fun _ => rfl)
      (keeps_update (fun _ => rfl) (fun _ => rfl) fun _ => rfl) (fun _ _ _ => rfl)
      (fun _ hp => .inl hp) (Further.refl _),
      h.opened.further (fun _ => rfl) (fun j y hy hstage => ⟨y, hy, rfl, hstage⟩) ?_⟩
    intro j y row' _ _ _ hfind hrecorded
    rw [markScriptRunning, Table.find?_update, Option.map_eq_some_iff] at hfind
    obtain ⟨row, hfind, rfl⟩ := hfind
    split at hrecorded
    · cases hrecorded
    · next hnot => rw [hfind, if_neg hnot]

theorem finishScriptRun_eq_ok {runId now : Str} {r : ScriptResult} {t t' : ScriptTable}
    {row : Option ScriptRun} (h : finishScriptRun runId now r t = .ok (row, t')) :
    t' = t.update (fun row => row.runId = runId) (endScript r now) := by
  unfold finishScriptRun at h
  split at h
  · cases h
  · cases h
    rfl

theorem steady_finishScriptRun (h : Steady store log holds) {runId : Str} {r : ScriptResult}
    {x : Hold} (hx : holds i = some x) (hlatest : latest log runId = some i) :
    SteadyAfter env i (.finishScriptRun runId r) store log holds := by
  rcases respondTo_cases env (finishScriptRun runId env.now r) store with
    ⟨e, hreply⟩ | ⟨persisted, runs, hfinish, hreply⟩
  · have hexec : exec env (.finishScriptRun runId r) store = (.error e, store) := hreply
    refine h.unchanged (by rw [hexec]) ?_ (fun _ _ => rfl) fun _ _ => rfl
    rw [hexec, hx]
    rfl
  · obtain rfl := finishScriptRun_eq_ok hfinish
    have htrack : track (holds i) ⟨.finishScriptRun runId r, .ok persisted⟩ =
        some { x with stage := .ended } := by rw [hx]; rfl
    rw [SteadyAfter, exec, hreply, htrack]
    refine ⟨h.agreed.further (fun _ => rfl)
      (keeps_update (fun _ => rfl) (fun _ => rfl) fun _ => rfl) (fun _ _ _ => rfl)
      (fun _ hp => .inl hp) (further_update hx (.inr (.inr rfl))), ?_⟩
    have hother : ∀ j y, Function.update holds i (some { x with stage := .ended }) j = some y →
        y.stage ≠ .ended → j ≠ i ∧ holds j = some y := by
      intro j y hy hstage
      by_cases hj : j = i
      · subst hj
        rw [Function.update_self] at hy
        cases hy
        exact absurd rfl hstage
      · rw [Function.update_of_ne hj] at hy
        exact ⟨hj, hy⟩
    refine h.opened.further (fun _ => rfl) (fun j y hy hstage => ?_) ?_
    · exact ⟨y, (hother j y hy hstage).2, rfl, hstage⟩
    · intro j y row' hy hstage hlatest' hfind _
      rw [Table.find?_update, Option.map_eq_some_iff] at hfind
      obtain ⟨row, hfind, rfl⟩ := hfind
      have hrun : row.runId ≠ runId := by
        rintro rfl
        rw [← Table.key_of_find? hfind, hlatest, Option.some.injEq] at hlatest'
        exact (hother j y hy hstage).1 hlatest'.symm
      rw [hfind, if_neg (by simpa using hrun)]

theorem steady_createScriptRun (h : Steady store log holds) {a : CreateScriptArgs}
    (hnone : holds i = none) (hfenced : FencedOp store log i (.createScriptRun a)) :
    SteadyAfter env i (.createScriptRun a) store log holds := by
  rcases respondTo_cases env (createScriptRun env.freshId env.now a) store with
    ⟨e, hreply⟩ | ⟨⟨row, created⟩, runs, hcreate, hreply⟩
  · have hexec : exec env (.createScriptRun a) store = (.error e, store) := hreply
    rw [SteadyAfter, hexec, hnone]
    have hholds : Function.update holds i (track none ⟨.createScriptRun a, .error e⟩) = holds := by
      rw [show track none ⟨.createScriptRun a, .error e⟩ = holds i from hnone.symm,
        Function.update_eq_self]
    rw [hholds]
    exact ⟨h.agreed.further (fun _ => rfl) (Keeps.refl _) (fun _ _ _ => rfl) (fun _ hp => .inl hp)
      (Further.refl _), h.opened.further (fun _ => rfl) (fun j y hy hstage => ⟨y, hy, rfl, hstage⟩)
      fun j y row' _ _ _ hfind _ => hfind⟩
  · obtain ⟨hrecorded, ⟨rfl, hmem, rfl⟩ | ⟨rfl, hstatus, hinsert⟩⟩ := createScriptRun_cases hcreate
    · rw [SteadyAfter, exec, hreply, hnone]
      exact ⟨h.agreed.found hmem hrecorded (hfenced row hmem hrecorded) fun _ => rfl,
        h.opened.found hmem fun _ => rfl⟩
    · rw [SteadyAfter, exec, hreply, hnone]
      exact ⟨h.agreed.created hinsert hrecorded fun _ => rfl,
        h.opened.created hinsert hstatus fun _ => rfl⟩

/-- A run that a call may execute has its source, with the digest of the call's own. -/
theorem Steady.ready (h : Steady store log holds) {x : Hold} (hx : holds i = some x)
    (hstage : x.stage = .ready) : ∃ source row, store.sources x.row.runId = some source ∧
      store.runs.find? x.row.runId = some row ∧ Recorded row x.args ∧
      Skills.digest source = .ok row.sourceSha256 := by
  obtain ⟨source, hwrote⟩ := h.agreed.written i x hx hstage
  obtain ⟨hsource, row, hfind, hdigest⟩ := h.agreed.kept _ _ hwrote
  obtain ⟨row', hfind', hrecorded⟩ := h.agreed.known i x hx
  rw [hfind] at hfind'
  obtain rfl := Option.some.inj hfind'
  exact ⟨source, row, hsource, hfind, hrecorded, hdigest⟩

theorem steady_launch (h : Steady store log holds) {taskId runId ref : Str} {x : Hold}
    (hx : holds i = some x) (hrun : x.row.runId = runId) (hstage : x.stage = .ready) :
    SteadyAfter env i (.launch taskId runId ref) store log holds := by
  subst hrun
  have htrack : ∀ r, track (holds i) ⟨.launch taskId x.row.runId ref, r⟩ = holds i := by
    intro r
    cases holds i <;> cases r <;> rfl
  obtain ⟨source, row, hsource, hfind, -, hdigest⟩ := h.ready hx hstage
  have hexec : exec env (.launch taskId x.row.runId ref) store = respond env () store
      { store with executions := (x.row.runId, source) :: store.executions } := by
    rw [exec, launch, hsource]
  rcases respond_cases env () store
    { store with executions := (x.row.runId, source) :: store.executions } with
    ⟨e, hreply⟩ | ⟨-, hreply⟩
  · exact h.unchanged (by rw [hexec, hreply]) (htrack _) (fun _ _ => rfl) fun _ _ => rfl
  · refine h.touched (by rw [hexec, hreply]) (fun _ _ _ => rfl) (fun p hp => ?_) (htrack _)
      (fun _ _ => rfl) fun _ _ => rfl
    rcases List.mem_cons.1 hp with rfl | hp
    · exact .inr ⟨row, hfind, hdigest⟩
    · exact .inl hp

/-- A fenced request of a call keeps what is kept. -/
theorem steady_exec (h : Steady store log holds) (hheld : held history = holds i)
    (hallowed : Allowed history op) (hfenced : FencedOp store log i op) :
    SteadyAfter env i op store log holds := by
  cases op with
  | ensureWorkspace _ | makeDirectories _ | protectSource _ | awaitContainer _
  | publishedArtifacts _ _ | getTask _ =>
    refine h.unchanged (respond_snd ..) ?_ (fun _ _ => rfl) fun _ _ => rfl
    generalize (exec env _ store).1 = r
    cases holds i <;> cases r <;> rfl
  | createScriptRun a => exact steady_createScriptRun h (hheld ▸ hallowed) hfenced
  | openSource runId =>
    obtain ⟨x, hx, hrun, hstage⟩ := hallowed
    exact steady_openSource h (hheld ▸ hx) hrun hstage
  | writeSource runId source =>
    obtain ⟨x, hx, hrun, hstage, hsource⟩ := hallowed
    exact steady_writeSource h (hheld ▸ hx) hrun hstage hsource
  | markScriptRunning runId => exact steady_markScriptRunning h
  | launch taskId runId ref =>
    obtain ⟨x, hx, hrun, hstage⟩ := hallowed
    exact steady_launch h (hheld ▸ hx) hrun hstage
  | finishScriptRun runId r =>
    obtain ⟨x, hx, hrun, hstage⟩ := hallowed
    exact steady_finishScriptRun h (hheld ▸ hx) hfenced

end Requests

end HardyAI.Tasks.CodeRunner
