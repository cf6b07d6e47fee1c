import HardyAI.Documents.ActiveRuns
import HardyAI.Jobs.LeaseFencing

/-! Workers that process one run under claims of their jobs. The ledger counts its tokens
for each job, and a run is fenced by whatever token began it last. -/

open Foundation Foundation.Json Foundation.Trace

namespace HardyAI.Documents

section Rows

variable {run run' : ProcessingRun} {db : DocumentDb}

/-- A state that `begin_processing_run` does not reopen. -/
@[grind =]
def ProcessingState.closed : ProcessingState → Bool
  | .complete | .needsReview | .processingIncomplete | .cancelled | .protectedPending
  | .notRequested => true
  | .queued | .processing | .failed => false

theorem beginnable_not_closed {token : Int} (h : run.beginnable token = true) :
    run.status.closed = false := by
  simp only [ProcessingRun.beginnable, Bool.and_eq_true, Bool.or_eq_true, decide_eq_true_eq] at h
  rcases h.1 with (h | h) | h <;> rw [h] <;> rfl

theorem heldBy_not_closed {token : Int} (h : run.heldBy token = true) :
    run.status.closed = false := by
  simp only [ProcessingRun.heldBy, Bool.and_eq_true, decide_eq_true_eq] at h
  rw [h.2]
  rfl

/-- The token of a run only rises, and a closed run stays as it is. -/
structure RunAdvances (run run' : ProcessingRun) : Prop where
  token : run.fencingToken ≤ run'.fencingToken
  closed : run.status.closed = true → run' = run

theorem RunAdvances.refl (run : ProcessingRun) : RunAdvances run run := ⟨le_rfl, fun _ => rfl⟩

theorem RunAdvances.trans {run'' : ProcessingRun} (h : RunAdvances run run')
    (h' : RunAdvances run' run'') : RunAdvances run run'' := by
  refine ⟨h.token.trans h'.token, fun hclosed => ?_⟩
  have hsame : run' = run := h.closed hclosed
  rw [h'.closed (hsame ▸ hclosed), hsame]

theorem RunWritten.advances (h : RunWritten run run') : RunAdvances run run' := by
  cases h with
  | begun token observedAt hopen h =>
    have hle : run.fencingToken ≤ token := by
      simp only [ProcessingRun.beginnable, Bool.and_eq_true, decide_eq_true_eq] at hopen
      exact hopen.2
    refine ⟨by rw [h]; exact hle, fun hclosed => ?_⟩
    rw [beginnable_not_closed hopen] at hclosed
    cases hclosed
  | held token hheld h =>
    refine ⟨h.ge, fun hclosed => ?_⟩
    rw [heldBy_not_closed hheld] at hclosed
    cases hclosed

theorem RunsStep.advances {runs' : Table ProcessingRun.runId} (h : RunsStep db runs') {id : Str}
    (hrun : db.runs.find? id = some run) :
    ∃ run', runs'.find? id = some run' ∧ RunAdvances run run' := by
  cases h with
  | same h => exact ⟨run, by rw [h, hrun], .refl run⟩
  | updated runId g f hruns hdocument hversion hwritten =>
    refine ⟨if id = runId ∧ g run = true then f.apply run else run, ?_, ?_⟩
    · rw [hruns, Table.find?_updateKey, hrun, Option.map_some]
    · split
      · next hg => exact (hwritten run hg.2).advances
      · exact .refl run
  | inserted new hins hversion => exact ⟨run, (extends_insert hins).find? hrun, .refl run⟩

/-- The run and the token that a fenced write names. -/
def Call.fence? : Call → Option (Str × Int)
  | .setProcessingOperation runId token _ _ | .clearProcessingOperation runId token _ _ =>
    some (runId, token)
  | .commitStage r => some (r.runId, r.token)
  | .replaceNormalizedProjection r => some (r.runId, r.token)
  | .finishProcessingRun r => some (r.runId, r.token)
  | _ => none

def Call.begins : Call → Bool
  | .beginProcessingRun _ _ _ => true
  | _ => false

end Rows

section Writes

variable [PythonText] [FieldText] {db : DocumentDb}

/-- The write fails, and it changes nothing. -/
structure Call.Refused (db : DocumentDb) (c : Call) : Prop where
  fails : match c with
    | .setProcessingOperation runId token operationRef observedAt =>
      (Documents.setProcessingOperation runId token operationRef observedAt).reply db = .ok false
    | .clearProcessingOperation runId token expectedRef observedAt =>
      (Documents.clearProcessingOperation runId token expectedRef observedAt).reply db = .ok false
    | .commitStage r => ∃ e, (Documents.commitStage r).reply db = .error e
    | .replaceNormalizedProjection r =>
      ∃ e, (Documents.replaceNormalizedProjection r).reply db = .error e
    | .finishProcessingRun r => ∃ e, (Documents.finishProcessingRun r).reply db = .error e
    | _ => False
  unchanged : c.commit db = db

omit [PythonText] [FieldText] in
theorem updateKey_of_forall {runId : Str} {g : ProcessingRun → Bool}
    {f : Table.Assignment ProcessingRun.runId}
    (h : ∀ run, db.runs.find? runId = some run → g run = false) :
    db.runs.updateKey runId g f = (false, db.runs) := by
  have hfst : (db.runs.updateKey runId g f).1 = false := by
    rw [← Bool.not_eq_true, Table.updateKey_fst]
    rintro ⟨run, hrun, hg⟩
    rw [h run hrun] at hg
    cases hg
  exact Prod.ext hfst (Table.updateKey_snd_of_false hfst)

omit [PythonText] [FieldText] in
theorem fails_of_not_ok {α : Type} {t : Transaction DocumentDb α}
    (h : ∀ a s', t db ≠ .ok (a, s')) : (∃ e, t.reply db = .error e) ∧ t.commit db = db := by
  cases ht : t db with
  | error e => exact ⟨⟨e, by rw [Transaction.reply, ht]; rfl⟩, Transaction.commit_of_error ht⟩
  | ok x => exact absurd ht (h x.1 x.2)

/-- A write under a token that the run is not held by is refused. -/
theorem Call.refused_of_not_held {c : Call} {runId : Str} {token : Int}
    (hfence : c.fence? = some (runId, token))
    (h : ∀ run, db.runs.find? runId = some run → run.heldBy token = false) : c.Refused db := by
  have hnone : ∀ run, db.runs.find? runId = some run → run.heldBy token = true → False := by
    intro run hrun hheld
    rw [h run hrun] at hheld
    cases hheld
  cases c with
  | setProcessingOperation id t operationRef observedAt =>
    cases hfence
    constructor
    · show Except.ok _ = _
      rw [updateKey_of_forall h]
    · show ({ db with runs := _ } : DocumentDb) = db
      rw [updateKey_of_forall h]
  | clearProcessingOperation id t expectedRef observedAt =>
    cases hfence
    have hguard : ∀ run, db.runs.find? runId = some run →
        (run.heldBy token && run.providerOperationRef = some expectedRef) = false := by
      intro run hrun
      rw [h run hrun, Bool.false_and]
    constructor
    · show Except.ok _ = _
      rw [updateKey_of_forall hguard]
    · show ({ db with runs := _ } : DocumentDb) = db
      rw [updateKey_of_forall hguard]
  | commitStage r =>
    cases hfence
    obtain ⟨hfails, hsame⟩ := @fails_of_not_ok db _ (Documents.commitStage r) fun a s' hok => by
      obtain ⟨run, -, hrun, hheld, -⟩ := commitStage_eq_ok hok
      exact hnone run hrun hheld
    exact ⟨hfails, hsame⟩
  | replaceNormalizedProjection r =>
    cases hfence
    obtain ⟨hfails, hsame⟩ := @fails_of_not_ok db _
        (Documents.replaceNormalizedProjection r) fun a s' hok => by
      obtain ⟨run, -, -, -, -, hrun, hheld, -⟩ := replaceNormalizedProjection_eq_ok hok
      exact hnone run hrun hheld
    exact ⟨hfails, hsame⟩
  | finishProcessingRun r =>
    cases hfence
    obtain ⟨hfails, hsame⟩ := @fails_of_not_ok db _
        (Documents.finishProcessingRun r) fun a s' hok => by
      obtain ⟨-, run, hrun, hheld, -, -⟩ := finishProcessingRun_eq_ok hok
      exact hnone run hrun hheld
    exact ⟨hfails, hsame⟩
  | _ => cases hfence

omit [PythonText] [FieldText] in
theorem setProcessingOperation_held {runId : Str} {token : Int} {r : ProcessingRun}
    (hrun : db.runs.find? runId = some r) (hheld : r.heldBy token = true)
    (operationRef observedAt : Str) :
    (setProcessingOperation runId token operationRef observedAt).reply db = .ok true := by
  simp only [Transaction.reply, setProcessingOperation, Except.map]
  rw [Table.updateKey_fst.2 ⟨r, hrun, hheld⟩]

end Writes

section Processing

/-- A claim of a job: the worker that was given the row processes a run under its token. -/
structure Attempt where
  jobId : Str
  token : Int
  deriving DecidableEq

/-- The ledger and the store, all claims so far, and which of them has begun which run. -/
structure Processing where
  ledger : Jobs.JobLedger
  db : DocumentDb
  attempts : List Attempt
  begun : List (Nat × Str)

def Processing.start : Processing := ⟨.empty, ∅, [], []⟩

/-- A worker takes the steps of its attempt at any time, also after its lease has expired. -/
inductive Event
  | job (c : Jobs.Call)
  | begin (i : Nat) (runId observedAt : Str)
  | write (i : Nat) (c : Call)
  | document (c : Call)

namespace Processing

/-- A worker begins one run in its attempt. -/
def free (s : Processing) (i : Nat) : Bool := s.begun.all fun b => b.1 ≠ i

variable [PythonText] [FieldText]

/-- The call that the attempt makes to begin the run. -/
def begins (s : Processing) (a : Attempt) (runId observedAt : Str) : Bool :=
  ((beginProcessingRun runId a.token observedAt).reply s.db).toBool

@[grind =]
def step (s : Processing) : Event → Processing
  | .job c => { s with
      ledger := Jobs.step s.ledger c
      attempts := s.attempts ++
        (c.claimed s.ledger).map fun r => ⟨r.jobId, r.leaseFencingToken⟩ }
  | .begin i runId observedAt =>
    match s.attempts[i]? with
    | none => s
    | some a =>
      if s.free i && s.begins a runId observedAt then { s with
        db := (Call.beginProcessingRun runId a.token observedAt).commit s.db
        begun := s.begun ++ [(i, runId)] }
      else s
  | .write i c =>
    match s.attempts[i]?, c.fence? with
    | some a, some (_, token) => if token = a.token then { s with db := c.commit s.db } else s
    | _, _ => s
  | .document c =>
    if c.fence?.isNone && !c.begins then { s with db := c.commit s.db } else s

theorem step_db (s : Processing) (e : Event) :
    (s.step e).db = s.db ∨ ∃ c, (s.step e).db = Call.commit s.db c := by
  cases e with
  | job c => exact .inl rfl
  | begin i runId observedAt =>
    simp only [step]
    split
    · exact .inl rfl
    · next a _ =>
      split
      · exact .inr ⟨.beginProcessingRun runId a.token observedAt, rfl⟩
      · exact .inl rfl
  | write i c =>
    simp only [step]
    split
    · split
      · exact .inr ⟨c, rfl⟩
      · exact .inl rfl
    · exact .inl rfl
  | document c =>
    simp only [step]
    split
    · exact .inr ⟨c, rfl⟩
    · exact .inl rfl

theorem step_write (s : Processing) (i : Nat) (c : Call) :
    ∃ db, s.step (.write i c) = { s with db := db } := by
  simp only [step]
  split
  · split
    · exact ⟨c.commit s.db, rfl⟩
    · exact ⟨s.db, rfl⟩
  · exact ⟨s.db, rfl⟩

theorem step_document (s : Processing) (c : Call) :
    ∃ db, s.step (.document c) = { s with db := db } := by
  simp only [step]
  split
  · exact ⟨c.commit s.db, rfl⟩
  · exact ⟨s.db, rfl⟩

variable {s : Processing}

theorem step_advances (e : Event) {id : Str} {r : ProcessingRun}
    (hrun : s.db.runs.find? id = some r) :
    ∃ r', (s.step e).db.runs.find? id = some r' ∧ RunAdvances r r' := by
  rcases s.step_db e with hsame | ⟨c, hcommit⟩
  · exact ⟨r, by rw [hsame, hrun], .refl r⟩
  · rw [hcommit]
    exact (storeStep s.db c).runs.advances hrun

theorem run_advances (events : List Event) {id : Str} {r : ProcessingRun}
    (hrun : s.db.runs.find? id = some r) :
    ∃ r', (run step s events).db.runs.find? id = some r' ∧ RunAdvances r r' := by
  induction events generalizing s r with
  | nil => exact ⟨r, hrun, .refl r⟩
  | cons e events ih =>
    obtain ⟨r₁, hfirst, hadvance⟩ := step_advances e hrun
    obtain ⟨r', hrest, hadvance'⟩ := ih hfirst
    exact ⟨r', hrest, hadvance.trans hadvance'⟩

/-- The run after a begin that goes through has the token of the attempt. -/
theorem begins_spec {a : Attempt} {runId observedAt : Str}
    (h : s.begins a runId observedAt = true) :
    ∃ r x, s.db.runs.find? runId = some r ∧
      x = (if r.beginnable a.token then (beginRun a.token observedAt).apply r else r) ∧
      x.fencingToken = a.token ∧
      ((Call.beginProcessingRun runId a.token observedAt).commit s.db).runs.find? runId =
        some x := by
  unfold begins at h
  cases hreply : (beginProcessingRun runId a.token observedAt).reply s.db with
  | error e =>
    rw [hreply] at h
    cases h
  | ok x =>
    obtain ⟨r, hrun, hx, htoken, hdb⟩ := beginProcessingRun_eq_ok (Transaction.reply_eq_ok.1 hreply)
    refine ⟨r, x, hrun, hx, htoken, ?_⟩
    show ((beginProcessingRun runId a.token observedAt).commit s.db).runs.find? runId = some x
    rw [hdb]
    show (s.db.runs.updateKey runId _ _).2.find? runId = some x
    rw [Table.find?_updateKey, hrun, hx, Option.map_some]
    simp only [true_and]

theorem begins_token_le {a : Attempt} {observedAt id : Str} {r : ProcessingRun}
    (h : s.begins a id observedAt = true) (hrun : s.db.runs.find? id = some r) :
    r.fencingToken ≤ a.token := by
  obtain ⟨r', x, hrun', hx, htoken, -⟩ := begins_spec h
  obtain rfl : r = r' := Option.some.inj (hrun.symm.trans hrun')
  by_cases hopen : r.beginnable a.token = true
  · simp only [ProcessingRun.beginnable, Bool.and_eq_true, decide_eq_true_eq] at hopen
    exact hopen.2
  · rw [if_neg hopen] at hx
    rw [← hx, htoken]

/-- The tokens are those that the ledger has given out, and no claim is counted twice. -/
structure Accounted (s : Processing) : Prop where
  issued : ∀ a ∈ s.attempts, a.token ≤ s.ledger.token a.jobId
  distinct : s.attempts.Nodup
  begun : ∀ b ∈ s.begun, ∃ a r, s.attempts[b.1]? = some a ∧
    s.db.runs.find? b.2 = some r ∧ a.token ≤ r.fencingToken

theorem Accounted.job (hs : Accounted s) (c : Jobs.Call) : Accounted (s.step (.job c)) := by
  let claims := (c.claimed s.ledger).map fun r => (⟨r.jobId, r.leaseFencingToken⟩ : Attempt)
  have hclaim : ∀ a ∈ claims, (Jobs.step s.ledger c).token a.jobId = a.token ∧
      s.ledger.token a.jobId < a.token := by
    intro a ha
    obtain ⟨r, hr, rfl⟩ := List.mem_map.1 ha
    obtain ⟨hnew, old, hold, htoken⟩ := Jobs.claimed_row hr
    dsimp only
    rw [Jobs.JobLedger.token, Jobs.JobLedger.token, hnew, hold, Option.elim_some,
      Option.elim_some]
    omega
  refine ⟨fun a ha => ?_, List.nodup_append.2 ⟨hs.distinct, ?_, ?_⟩, fun b hb => ?_⟩
  · rcases List.mem_append.1 ha with ha | ha
    · exact (hs.issued a ha).trans (Jobs.token_le_step s.ledger c)
    · exact (hclaim a ha).1.ge
  · have hids : claims.map Attempt.jobId = (c.claimed s.ledger).map Jobs.DurableJob.jobId :=
      List.map_map
    exact List.Nodup.of_map Attempt.jobId (hids ▸ c.nodup_claimed s.ledger)
  · rintro a ha a' ha' rfl
    have hle := hs.issued a ha
    have hlt := (hclaim a ha').2
    omega
  · obtain ⟨a, r, ha, hr, hle⟩ := hs.begun b hb
    refine ⟨a, r, ?_, hr, hle⟩
    obtain ⟨hlt, -⟩ := List.getElem?_eq_some_iff.1 ha
    exact (List.getElem?_append_left hlt).trans ha

/-- What the invariant says of the store survives every step that keeps ledger and attempts. -/
theorem Accounted.advance (hs : Accounted s) (e : Event) {s' : Processing}
    (hdb : s'.db = (s.step e).db) (hledger : s'.ledger = s.ledger)
    (hattempts : s'.attempts = s.attempts) (hbegun : s'.begun = s.begun) : Accounted s' := by
  refine ⟨fun a ha => ?_, by rw [hattempts]; exact hs.distinct, fun b hb => ?_⟩
  · rw [hattempts] at ha
    rw [hledger]
    exact hs.issued a ha
  · rw [hbegun] at hb
    obtain ⟨a, r, ha, hr, hle⟩ := hs.begun b hb
    obtain ⟨r', hr', hadvance⟩ := step_advances e hr
    exact ⟨a, r', by rw [hattempts, ha], by rw [hdb, hr'], hle.trans hadvance.token⟩

theorem step_begin {i : Nat} {a : Attempt} {runId observedAt : Str}
    (ha : s.attempts[i]? = some a) (hfree : s.free i = true)
    (hbegins : s.begins a runId observedAt = true) :
    s.step (.begin i runId observedAt) = { s with
      db := (Call.beginProcessingRun runId a.token observedAt).commit s.db
      begun := s.begun ++ [(i, runId)] } := by
  simp only [step, ha, hfree, hbegins, Bool.and_self, if_true]

theorem Accounted.begin (hs : Accounted s) (i : Nat) (runId observedAt : Str) :
    Accounted (s.step (.begin i runId observedAt)) := by
  by_cases hok : ∃ a, s.attempts[i]? = some a ∧ s.free i = true ∧
      s.begins a runId observedAt = true
  · obtain ⟨a, ha, hfree, hbegins⟩ := hok
    have hstep := step_begin ha hfree hbegins
    let s₁ : Processing := { s with db := (s.step (.begin i runId observedAt)).db }
    have hold : Accounted s₁ := hs.advance (.begin i runId observedAt) rfl rfl rfl rfl
    dsimp only [s₁] at hold
    rw [hstep] at hold ⊢
    refine ⟨hold.issued, hold.distinct, fun b hb => ?_⟩
    rcases List.mem_append.1 hb with hb | hb
    · exact hold.begun b hb
    · obtain rfl := List.mem_singleton.1 hb
      obtain ⟨r, x, hr, hx, htoken, hnew⟩ := begins_spec hbegins
      exact ⟨a, x, ha, hnew, htoken.ge⟩
  · have hsame : s.step (.begin i runId observedAt) = s := by
      simp only [step]
      split
      · rfl
      · next a ha =>
        split
        · next h => exact absurd ⟨a, ha, Bool.and_eq_true_iff.1 h⟩ hok
        · rfl
    rw [hsame]
    exact hs

theorem Accounted.step (hs : Accounted s) (e : Event) : Accounted (s.step e) := by
  cases e with
  | job c => exact hs.job c
  | begin i runId observedAt => exact hs.begin i runId observedAt
  | write i c =>
    obtain ⟨db, hstep⟩ := s.step_write i c
    exact hs.advance (.write i c) rfl (by rw [hstep]) (by rw [hstep]) (by rw [hstep])
  | document c =>
    obtain ⟨db, hstep⟩ := s.step_document c
    exact hs.advance (.document c) rfl (by rw [hstep]) (by rw [hstep]) (by rw [hstep])

theorem accounted_run (events : List Event) : Accounted (run step .start events) :=
  run_invariant (fun _ e hs => hs.step e)
    ⟨fun _ ha => absurd ha List.not_mem_nil, List.nodup_nil,
      fun _ hb => absurd hb List.not_mem_nil⟩ events

/-- No attempt of another job has begun the run under the token of `a`. -/
def Sole (s : Processing) (a : Attempt) (runId : Str) : Prop :=
  ∀ k b, (k, runId) ∈ s.begun → s.attempts[k]? = some b → b.jobId ≠ a.jobId → b.token ≠ a.token

/-- Whoever began the run before `a` has an earlier token. -/
theorem token_lt_of_sole (hs : Accounted s) {i k : Nat} {a b : Attempt} {runId observedAt : Str}
    (ha : s.attempts[i]? = some a) (hfree : s.free i = true)
    (hbegins : s.begins a runId observedAt = true) (hsole : s.Sole a runId)
    (hk : (k, runId) ∈ s.begun) (hb : s.attempts[k]? = some b) : b.token < a.token := by
  obtain ⟨b', r, hb', hr, hle⟩ := hs.begun (k, runId) hk
  obtain rfl : b = b' := Option.some.inj (hb.symm.trans hb')
  have hrun : r.fencingToken ≤ a.token := begins_token_le hbegins hr
  have hne : b.token ≠ a.token := by
    by_cases hjob : b.jobId = a.jobId
    · intro htoken
      obtain rfl : b = a := by
        cases a
        cases b
        cases hjob
        cases htoken
        rfl
      -- the ledger gives no token of a job out twice
      obtain ⟨hlt, hi⟩ := List.getElem?_eq_some_iff.1 ha
      obtain ⟨hlt', hk'⟩ := List.getElem?_eq_some_iff.1 hb
      have hsame : i = k := (List.Nodup.getElem_inj_iff hs.distinct).1 (hi.trans hk'.symm)
      have hapart := List.all_eq_true.1 hfree (k, runId) hk
      rw [decide_eq_true_eq] at hapart
      exact hapart hsame.symm
    · exact hsole k b hk hb hjob
  omega

omit [PythonText] [FieldText] in
theorem closed_not_heldBy {r : ProcessingRun} {token : Int} (h : r.status.closed = true) :
    r.heldBy token = false := by
  cases hheld : r.heldBy token with
  | false => rfl
  | true =>
    rw [heldBy_not_closed hheld] at h
    cases h

/-- A run that is not closed is held by the attempt that has begun it. -/
theorem held_after_begin {a : Attempt} {runId observedAt : Str} {r : ProcessingRun}
    (hbegins : s.begins a runId observedAt = true) (hrun : s.db.runs.find? runId = some r)
    (hopen : r.status.closed = false) :
    ∃ x, ((Call.beginProcessingRun runId a.token observedAt).commit s.db).runs.find? runId =
      some x ∧ x.heldBy a.token = true := by
  have hle : r.fencingToken ≤ a.token := begins_token_le hbegins hrun
  obtain ⟨r', x, hrun', hx, -, hnew⟩ := begins_spec hbegins
  obtain rfl : r = r' := Option.some.inj (hrun.symm.trans hrun')
  have hbeginnable : r.beginnable a.token = true := by
    simp only [ProcessingRun.beginnable, Bool.and_eq_true, decide_eq_true_eq]
    refine ⟨?_, hle⟩
    cases hstatus : r.status <;> rw [hstatus] at hopen <;> first | rfl | cases hopen
  refine ⟨x, hnew, ?_⟩
  rw [hx, if_pos hbeginnable]
  simp only [ProcessingRun.heldBy, beginRun, decide_true, Bool.and_self]

theorem refused_later (hs : Accounted s) {i k : Nat} {a b : Attempt} {runId observedAt : Str}
    (ha : s.attempts[i]? = some a) (hfree : s.free i = true)
    (hbegins : s.begins a runId observedAt = true)
    (hcond : (s.db.runs.find? runId).any (fun r => r.status.closed) = true ∨ s.Sole a runId)
    (hk : (k, runId) ∈ s.begun) (hb : s.attempts[k]? = some b) {c : Call}
    (hfence : c.fence? = some (runId, b.token)) (post : List Event) :
    c.Refused (run step (s.step (.begin i runId observedAt)) post).db := by
  refine Call.refused_of_not_held hfence fun r' hr' => ?_
  obtain ⟨r, x, hrun, hx, htoken, hnew⟩ := begins_spec hbegins
  have hbegun : (s.step (.begin i runId observedAt)).db.runs.find? runId = some x := by
    rw [step_begin ha hfree hbegins]
    exact hnew
  obtain ⟨r₁, hr₁, hadvance⟩ := run_advances post hbegun
  obtain rfl : r' = r₁ := Option.some.inj (hr'.symm.trans hr₁)
  rcases hcond with hclosed | hsole
  · rw [hrun, Option.any_some] at hclosed
    have hnot : ¬r.beginnable a.token = true := by
      intro hopen
      rw [beginnable_not_closed hopen] at hclosed
      cases hclosed
    rw [if_neg hnot] at hx
    rw [hadvance.closed (hx ▸ hclosed), hx]
    exact closed_not_heldBy hclosed
  · have hlt : b.token < a.token := token_lt_of_sole hs ha hfree hbegins hsole hk hb
    have hle : x.fencingToken ≤ r'.fencingToken := hadvance.token
    have hne : r'.fencingToken ≠ b.token := by omega
    rw [ProcessingRun.heldBy, decide_eq_false hne, Bool.false_and]

/-- A run's token never falls, and a closed run never changes. An attempt that begins a run shuts
out whoever began it before if and only if the run was closed or none of them has its token. -/
theorem run_fencing (events : List Event) :
    (∀ post id r, (run step .start events).db.runs.find? id = some r →
      ∃ r', (run step .start (events ++ post)).db.runs.find? id = some r' ∧
        r.fencingToken ≤ r'.fencingToken ∧ (r.status.closed = true → r' = r)) ∧
    ∀ i a runId observedAt, (run step .start events).attempts[i]? = some a →
      (run step .start events).free i = true →
      (run step .start events).begins a runId observedAt = true →
      ((∀ (post : List Event) (k : Nat) (b : Attempt) (c : Call),
          (k, runId) ∈ (run step .start events).begun →
          (run step .start events).attempts[k]? = some b → c.fence? = some (runId, b.token) →
          c.Refused (run step .start (events ++ .begin i runId observedAt :: post)).db) ↔
        ((run step .start events).db.runs.find? runId).any (fun r => r.status.closed) = true ∨
          (run step .start events).Sole a runId) := by
  have hs := accounted_run events
  refine ⟨fun post id r hr => ?_, fun i a runId observedAt ha hfree hbegins =>
    ⟨fun h => ?_, fun hcond post k b c hk hb hfence => ?_⟩⟩
  · obtain ⟨r', hr', hadvance⟩ := run_advances post hr
    exact ⟨r', by rw [run_append, hr'], hadvance.token, hadvance.closed⟩
  · by_contra hnot
    obtain ⟨hopen, hsole⟩ := not_or.1 hnot
    simp only [Sole, not_forall, not_not] at hsole
    obtain ⟨k, b, hk, hb, hjob, htoken⟩ := hsole
    obtain ⟨r, x, hrun, -, -, -⟩ := begins_spec hbegins
    rw [hrun, Option.any_some, Bool.not_eq_true] at hopen
    obtain ⟨x, hx, hheld⟩ := held_after_begin hbegins hrun hopen
    -- the earlier attempt holds the run as well
    have hrefused := (h [] k b (.setProcessingOperation runId b.token [] []) hk hb rfl).fails
    rw [run_concat, step_begin ha hfree hbegins] at hrefused
    rw [← htoken] at hheld
    exact Bool.noConfusion
      (Except.ok.inj (hrefused.symm.trans (setProcessingOperation_held hx hheld [] [])))
  · rw [run_append, run_cons]
    exact refused_later hs ha hfree hbegins hcond hk hb hfence post

end Processing

end Processing

section Samples

def processJob (jobId idempotencyKey : Str) : Jobs.EnqueueArgs where
  jobId := jobId
  jobType := "document.process.v1"
  aggregateId := "document-1"
  idempotencyKey := idempotencyKey
  payload := []

/-- The run is queued for the tool call and once more by the recovery; both jobs are claimed,
and both workers begin the run. -/
def twoJobs : List Event := [
  .document (.reconcileDiscoveredOrigin none firstOriginal),
  .document (.createProcessingRun (some firstOriginal.row) firstRun),
  .job (.enqueueJob (processJob "j1" "operation-1") ⟨0, zero_lt_maxMicros⟩),
  .job (.enqueueJob (processJob "j2" "document-process:run-1") ⟨0, zero_lt_maxMicros⟩),
  .job (.claimJobs "document.process.v1" "w1" 1 (.micros 900000000) ⟨1000000, second_lt_maxMicros⟩),
  .job (.claimJobs "document.process.v1" "w2" 1 (.micros 900000000) ⟨2000000, twoSeconds_lt_maxMicros⟩),
  .begin 0 "run-1" "t3"]

theorem equal_tokens_share_run :
    ¬∀ (events post : List Event) (i k : Nat) (a b : Attempt) (runId observedAt : Str) (c : Call),
      let s := @run _ _ (@Processing.step asciiText plainText) .start events
      s.attempts[i]? = some a → s.free i = true →
      s.begins a runId observedAt = true →
      (k, runId) ∈ s.begun → s.attempts[k]? = some b → c.fence? = some (runId, b.token) →
      @Call.Refused asciiText plainText (@run _ _ (@Processing.step asciiText plainText) .start
        (events ++ .begin i runId observedAt :: post)).db c := by
  intro h
  have hrefused := h twoJobs [] 1 0 ⟨"j2", 1⟩ ⟨"j1", 1⟩ "run-1" "t4"
    (.setProcessingOperation "run-1" 1 "submitted" "t5") (by decide +kernel) (by decide +kernel)
    (by decide +kernel) (by decide +kernel) (by decide +kernel) rfl
  have hreply : (setProcessingOperation "run-1" 1 "submitted" "t5").reply
      (@run _ _ (@Processing.step asciiText plainText) .start
        (twoJobs ++ [.begin 1 "run-1" "t4"])).db = .ok true := by
    decide +kernel
  exact Bool.noConfusion (Except.ok.inj ((@Call.Refused.fails asciiText plainText _ _ hrefused).symm.trans hreply))

end Samples

end HardyAI.Documents
