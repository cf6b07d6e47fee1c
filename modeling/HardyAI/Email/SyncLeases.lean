import HardyAI.Email.SyncStore
import HardyAI.Foundation.Trace

/-! The leases of the sync runs: what the claims, counts, completions and failures of several
processes do to a run that one of them holds. -/

open Foundation Foundation.Trace

namespace HardyAI.Email.SyncLeases

section Calls

/-- A call of a sync process. A claim names its worker as the owner of the lease; the other
calls carry no owner, and it is recorded here who makes them. A failure reads the attempts of
the run before its transaction starts, so that another process may have claimed the run since. -/
inductive Call
  | claim (r : ClaimRequest) (freshId : Str)
  | count (worker runId : Str) (counts : SyncCounts) (now : Instant)
  | complete (worker : Str) (c : Completion)
  | fail (worker runId errorCode : Str) (now : Instant) (maxAttempts attempts : Int)

def Call.now : Call → Instant
  | .claim r _ => r.now
  | .count _ _ _ now => now
  | .complete _ c => c.now
  | .fail _ _ _ now _ _ => now

/-- The worker and the run of a call that is no claim. -/
def Call.writes : Call → Option (Str × Str)
  | .claim _ _ => none
  | .count worker runId _ _ => some (worker, runId)
  | .complete worker c => some (worker, c.runId)
  | .fail worker runId _ _ _ _ => some (worker, runId)

/-- The store, with the claims that were granted, the latest first. -/
structure State where
  db : SyncDb
  claims : List (Str × Str)

/-- No runs yet, and the cursor where the mailbox was activated. -/
def State.initial (cursor : Option SyncState) : State := ⟨⟨cursor, ∅, ∅⟩, []⟩

/-- The worker that has claimed the run last. -/
def State.holder (s : State) (runId : Str) : Option Str :=
  (s.claims.find? fun p => p.1 = runId).map Prod.snd

/-- The run that a claim is about. -/
def State.bucketRun (s : State) (r : ClaimRequest) : Option SyncRun :=
  s.db.runs.rows.find? fun run => run.bucketKey = r.bucketKey

def failureStatus (maxAttempts attempts : Int) : SyncRunStatus :=
  if max 1 maxAttempts ≤ attempts then .deadLetter else .failed

def step (s : State) : Call → State
  | .claim r freshId =>
    { db := (claimSyncRun freshId r).commit s.db
      claims := match (claimSyncRun freshId r).reply s.db with
        | .ok (.claimed runId _) => (runId, r.leaseOwner) :: s.claims
        | .ok (.refused _) | .error _ => s.claims }
  | .count _ runId counts now => { s with db := updateRunCounts runId counts now s.db }
  | .complete _ c => { s with db := completeSyncRun c s.db }
  | .fail _ runId errorCode now maxAttempts attempts =>
    let failure := failedRun (failureStatus maxAttempts attempts) errorCode (isoUtc now)
    { s with db := s.db.updateRun runId failure }

def after (cursor : Option SyncState) (calls : List Call) : State :=
  run step (.initial cursor) calls

end Calls

section Guarantees

/-- The run is running under a lease of another worker that has not expired. -/
def State.LeasedToOther (s : State) (worker : Str) (now : Instant) (run : SyncRun) : Prop :=
  run.status = .running ∧ isoUtc now < run.leaseExpiresAt.getD [] ∧
    ∃ other, s.holder run.runId = some other ∧ other ≠ worker

/-- The worker has claimed the run, and another worker has claimed it since. -/
def State.Overtaken (s : State) (worker runId : Str) : Prop :=
  (runId, worker) ∈ s.claims ∧ s.holder runId ≠ some worker

/-- What a call has to respect: another worker's lease, a run that was claimed by another
worker since, and a run that is completed. -/
structure Guarded (s : State) (c : Call) : Prop where
  leased : ∀ r freshId, c = .claim r freshId → ∀ run ∈ s.db.runs.rows,
    s.LeasedToOther r.leaseOwner r.now run → (step s c).db.runs.find? run.runId = some run
  overtaken : ∀ worker runId, c.writes = some (worker, runId) → s.Overtaken worker runId →
    (step s c).db.runs.find? runId = s.db.runs.find? runId ∧ (step s c).db.state = s.db.state
  completed : ∀ run ∈ s.db.runs.rows, run.status = .completed →
    ∃ run', (step s c).db.runs.find? run.runId = some run' ∧ run'.status = .completed

/-- The row and the cursor already show what the call writes. -/
def Repeats (db : SyncDb) : Call → Prop
  | .claim _ _ => True
  | .count _ runId counts now => ∀ run, db.runs.find? runId = some run →
    run.counts = counts ∧ run.updatedAt = isoUtc now
  | .complete _ c => (∀ run, db.runs.find? c.runId = some run → (completed c).apply run = run) ∧
    ∀ state, db.state = some state → state.advance c = state
  | .fail _ runId errorCode now maxAttempts attempts => ∀ run, db.runs.find? runId = some run →
    (failedRun (failureStatus maxAttempts attempts) errorCode (isoUtc now)).apply run = run

/-- When a call respects leases: a claim does not find the run leased to another worker with all
attempts used, no worker writes anything new to a run that it was overtaken on, and no completed
run is failed. -/
def Fenced (s : State) : Call → Prop
  | .claim r _ => ∀ run, s.bucketRun r = some run → s.LeasedToOther r.leaseOwner r.now run →
    run.attemptCount < max 1 r.maxAttempts
  | .count worker runId counts now => s.Overtaken worker runId →
    Repeats s.db (.count worker runId counts now)
  | .complete worker c => s.Overtaken worker c.runId → Repeats s.db (.complete worker c)
  | .fail worker runId errorCode now maxAttempts attempts =>
    (∀ run, s.db.runs.find? runId = some run → run.status ≠ .completed) ∧
    (s.Overtaken worker runId →
      Repeats s.db (.fail worker runId errorCode now maxAttempts attempts))

end Guarantees

section Store

variable {db : SyncDb} {s : State} {c : Call}

theorem find?_updateRun (runId k : Str) (a : RunAssignment) :
    (db.updateRun runId a).runs.find? k =
      (db.runs.find? k).map fun run => if run.runId = runId then a.apply run else run := by
  rw [SyncDb.updateRun, Table.find?_update]
  cases db.runs.find? k with
  | none => rfl
  | some run => by_cases hrun : run.runId = runId <;> simp [hrun]

theorem find?_updateRun_self (runId : Str) (a : RunAssignment) :
    (db.updateRun runId a).runs.find? runId = (db.runs.find? runId).map a.apply := by
  rw [find?_updateRun]
  cases hfind : db.runs.find? runId with
  | none => rfl
  | some run => simp [Table.key_of_find? hfind]

theorem find?_updateRun_of_ne {runId k : Str} (a : RunAssignment) (hne : k ≠ runId) :
    (db.updateRun runId a).runs.find? k = db.runs.find? k := by
  rw [find?_updateRun]
  cases hfind : db.runs.find? k with
  | none => rfl
  | some run => simp [Table.key_of_find? hfind, hne]

/-- What a claim does: nothing, a new run, the end of a run without attempts left, or the lease
of a run that is not leased. -/
inductive Claims (s : State) (r : ClaimRequest) (s' : State) : Prop
  | refused (hattempts : ∀ run, s.bucketRun r = some run → run.status = .running →
        run.attemptCount < max 1 r.maxAttempts)
      (hdb : s'.db = s.db) (hclaims : s'.claims = s.claims)
  | created {run : SyncRun} {runs : Table SyncRun.runId} (hnone : s.bucketRun r = none)
      (hinsert : s.db.runs.insert? run = some runs) (hattempts : run.attemptCount = 1)
      (hdb : s'.db = { s.db with runs })
      (hclaims : s'.claims = (run.runId, r.leaseOwner) :: s.claims)
  | exhausted {run : SyncRun} (hrun : s.bucketRun r = some run)
      (hopen : run.status ≠ .completed ∧ run.status ≠ .deadLetter)
      (hattempts : max 1 r.maxAttempts ≤ run.attemptCount)
      (hdb : s'.db = s.db.updateRun run.runId (deadLettered (isoUtc r.now)))
      (hclaims : s'.claims = s.claims)
  | taken {run : SyncRun} (hrun : s.bucketRun r = some run) (hopen : run.status ≠ .completed)
      (hattempts : run.attemptCount < max 1 r.maxAttempts)
      (hfree : ¬ (run.status = .running ∧ isoUtc r.now < run.leaseExpiresAt.getD []))
      (hdb : s'.db = s.db.updateRun run.runId (reclaimed r))
      (hclaims : s'.claims = (run.runId, r.leaseOwner) :: s.claims)

theorem claim_spec (s : State) (r : ClaimRequest) (freshId : Str) :
    Claims s r (step s (.claim r freshId)) := by
  have hok : ∀ reply db', claimSyncRun freshId r s.db = .ok (reply, db') →
      step s (.claim r freshId) = ⟨db', match reply with
        | .claimed runId _ => (runId, r.leaseOwner) :: s.claims
        | .refused _ => s.claims⟩ := by
    intro reply db' h
    simp only [step, Transaction.commit, Transaction.reply, h, Except.map]
    cases reply <;> rfl
  have herror : ∀ e, claimSyncRun freshId r s.db = .error e → step s (.claim r freshId) = s := by
    intro e h
    simp only [step, Transaction.commit, Transaction.reply, h, Except.map]
  cases hbucket : s.bucketRun r with
  | none =>
    have hfind : s.db.runs.rows.find? (fun run => run.bucketKey = r.bucketKey) = none := hbucket
    let run : SyncRun := {
      runId := freshId, bucketKey := r.bucketKey, runKind := r.runKind, status := .running
      attemptCount := 1, leaseOwner := some r.leaseOwner
      leaseExpiresAt := some (isoUtc r.leaseExpiresAt), counts := .zero, lastErrorCode := none
      createdAt := isoUtc r.now, updatedAt := isoUtc r.now, completedAt := none }
    cases hinsert : s.db.runs.insert? run with
    | none =>
      have hrun : claimSyncRun freshId r s.db = .error .integrityError := by
        simp only [claimSyncRun, hfind]
        simp only [run] at hinsert
        rw [hinsert]
      rw [herror _ hrun]
      exact .refused (fun run hsome => by rw [hbucket] at hsome; cases hsome) rfl rfl
    | some runs =>
      have hrun : claimSyncRun freshId r s.db =
          .ok (.claimed freshId 1, { s.db with runs }) := by
        simp only [claimSyncRun, hfind]
        simp only [run] at hinsert
        rw [hinsert]
      rw [hok _ _ hrun]
      have hrow : s.db.runs.insert? run = some runs := hinsert
      exact .created hbucket hrow rfl rfl rfl
  | some run =>
    have hfind : s.db.runs.rows.find? (fun run => run.bucketKey = r.bucketKey) = some run := hbucket
    have hothers : (run.status = .running → run.attemptCount < max 1 r.maxAttempts) →
        ∀ run', s.bucketRun r = some run' → run'.status = .running →
          run'.attemptCount < max 1 r.maxAttempts := by
      intro hless run' hsome hrunning
      rw [hbucket] at hsome
      cases hsome
      exact hless hrunning
    by_cases hcompleted : run.status = .completed
    · have hrun : claimSyncRun freshId r s.db = .ok (.refused "completed", s.db) := by
        simp only [claimSyncRun, hfind, hcompleted, if_true]
      rw [hok _ _ hrun]
      exact .refused (hothers fun hrunning => by rw [hcompleted] at hrunning; cases hrunning)
        rfl rfl
    by_cases hattempts : max 1 r.maxAttempts ≤ run.attemptCount
    · by_cases hdead : run.status = .deadLetter
      · have hrun : claimSyncRun freshId r s.db = .ok (.refused "max_attempts", s.db) := by
          simp only [claimSyncRun, hfind, hdead, reduceCtorEq, hattempts, if_true, if_false]
        rw [hok _ _ hrun]
        exact .refused (hothers fun hrunning => by rw [hdead] at hrunning; cases hrunning) rfl rfl
      · have hrun : claimSyncRun freshId r s.db = .ok (.refused "max_attempts",
            s.db.updateRun run.runId (deadLettered (isoUtc r.now))) := by
          simp only [claimSyncRun, hfind, hcompleted, hdead, hattempts, if_true, if_false]
        rw [hok _ _ hrun]
        exact .exhausted hbucket ⟨hcompleted, hdead⟩ hattempts rfl rfl
    by_cases hleased : run.status = .running ∧ isoUtc r.now < run.leaseExpiresAt.getD []
    · have hrun : claimSyncRun freshId r s.db = .ok (.refused "leased", s.db) := by
        simp only [claimSyncRun, hfind, hcompleted, hattempts, if_false]
        rw [if_pos hleased]
      rw [hok _ _ hrun]
      exact .refused (hothers fun _ => not_le.1 hattempts) rfl rfl
    by_cases hrecent : run.status = .running ∧ isoUtc r.staleBefore < run.updatedAt
    · have hrun : claimSyncRun freshId r s.db = .ok (.refused "leased", s.db) := by
        simp only [claimSyncRun, hfind, hcompleted, hattempts, if_false]
        rw [if_neg hleased, if_pos hrecent]
      rw [hok _ _ hrun]
      exact .refused (hothers fun _ => not_le.1 hattempts) rfl rfl
    · have hrun : claimSyncRun freshId r s.db = .ok (.claimed run.runId (run.attemptCount + 1),
          s.db.updateRun run.runId (reclaimed r)) := by
        simp only [claimSyncRun, hfind, hcompleted, hattempts, if_false]
        rw [if_neg hleased, if_neg hrecent]
      rw [hok _ _ hrun]
      exact .taken hbucket hcompleted (not_le.1 hattempts) hleased rfl rfl

end Store

section Calls

variable {s : State} {db : SyncDb}

theorem map_eq_self {α : Type*} {o : Option α} {f : α → α} :
    o.map f = o ↔ ∀ a, o = some a → f a = a := by
  cases o with
  | none => simp
  | some a => simp

/-- A claim respects leases unless it ends a run that another worker holds. -/
theorem claim_guarded_iff (s : State) (r : ClaimRequest) (freshId : Str) :
    Guarded s (.claim r freshId) ↔ Fenced s (.claim r freshId) := by
  have hmem : ∀ {run}, s.bucketRun r = some run → run ∈ s.db.runs.rows :=
    fun hrun => List.mem_of_find?_eq_some hrun
  have hwrites : ∀ worker runId, (Call.claim r freshId).writes = some (worker, runId) →
      s.Overtaken worker runId →
      (step s (.claim r freshId)).db.runs.find? runId = s.db.runs.find? runId ∧
        (step s (.claim r freshId)).db.state = s.db.state := by
    intro worker runId hnone
    cases hnone
  cases claim_spec s r freshId with
  | refused hattempts hdb hclaims =>
    constructor
    · intro _ run hrun hleased
      exact hattempts run hrun hleased.1
    · intro _
      refine ⟨fun _ _ _ run hrun _ => ?_, hwrites, fun run hrun hdone => ⟨run, ?_, hdone⟩⟩
      · rw [hdb, Table.find?_of_mem hrun]
      · rw [hdb, Table.find?_of_mem hrun]
  | created hnone hinsert hattempts hdb hclaims =>
    have hkept : ∀ run ∈ s.db.runs.rows,
        (step s (.claim r freshId)).db.runs.find? run.runId = some run := by
      intro run hrun
      rw [hdb]
      exact Table.find?_of_mem ((Table.mem_insert? hinsert).2 (.inl hrun))
    constructor
    · intro _ run hrun
      rw [hnone] at hrun
      cases hrun
    · intro _
      exact ⟨fun _ _ _ run hrun _ => hkept run hrun, hwrites,
        fun run hrun hdone => ⟨run, hkept run hrun, hdone⟩⟩
  | @exhausted run hrun hopen hattempts hdb hclaims =>
    have hself : (step s (.claim r freshId)).db.runs.find? run.runId =
        some ((deadLettered (isoUtc r.now)).apply run) := by
      rw [hdb, find?_updateRun_self, Table.find?_of_mem (hmem hrun), Option.map_some]
    have hothers : ∀ run' ∈ s.db.runs.rows, run' ≠ run →
        (step s (.claim r freshId)).db.runs.find? run'.runId = some run' := by
      intro run' hrun' hne
      rw [hdb, find?_updateRun_of_ne _ fun hkey =>
        hne (s.db.runs.key_injective hrun' (hmem hrun) hkey)]
      exact Table.find?_of_mem hrun'
    constructor
    · intro hguarded run' hrun' hleased
      rw [hrun] at hrun'
      cases hrun'
      have hsame := hguarded.leased r freshId rfl run (hmem hrun) hleased
      rw [hself, Option.some.injEq] at hsame
      have hstatus : SyncRunStatus.deadLetter = run.status := congrArg SyncRun.status hsame
      exact absurd hstatus.symm hopen.2
    · intro hfenced
      refine ⟨?_, hwrites, ?_⟩
      · intro r' freshId' heq run' hrun' hleased
        cases heq
        refine hothers run' hrun' ?_
        rintro rfl
        have hless := hfenced run' hrun hleased
        omega
      · intro run' hrun' hdone
        refine ⟨run', hothers run' hrun' ?_, hdone⟩
        rintro rfl
        exact hopen.1 hdone
  | @taken run hrun hopen hattempts hfree hdb hclaims =>
    have hothers : ∀ run' ∈ s.db.runs.rows, run' ≠ run →
        (step s (.claim r freshId)).db.runs.find? run'.runId = some run' := by
      intro run' hrun' hne
      rw [hdb, find?_updateRun_of_ne _ fun hkey =>
        hne (s.db.runs.key_injective hrun' (hmem hrun) hkey)]
      exact Table.find?_of_mem hrun'
    constructor
    · intro _ run' hrun' hleased
      rw [hrun] at hrun'
      cases hrun'
      exact absurd ⟨hleased.1, hleased.2.1⟩ hfree
    · intro _
      refine ⟨?_, hwrites, ?_⟩
      · intro r' freshId' heq run' hrun' hleased
        cases heq
        refine hothers run' hrun' ?_
        rintro rfl
        exact hfree ⟨hleased.1, hleased.2.1⟩
      · intro run' hrun' hdone
        refine ⟨run', hothers run' hrun' ?_, hdone⟩
        rintro rfl
        exact hopen hdone

/-- A write that sets columns of one run and perhaps moves the cursor. -/
theorem write_guarded_iff {c : Call} {worker runId : Str} {a : RunAssignment}
    {f : SyncState → SyncState} (hwrites : c.writes = some (worker, runId))
    (hruns : (step s c).db.runs = (s.db.updateRun runId a).runs)
    (hstate : (step s c).db.state = s.db.state.map f) :
    Guarded s c ↔
      (∀ run, s.db.runs.find? runId = some run → run.status = .completed →
        (a.apply run).status = .completed) ∧
      (s.Overtaken worker runId → (∀ run, s.db.runs.find? runId = some run → a.apply run = run) ∧
        ∀ state, s.db.state = some state → f state = state) := by
  have hself : (step s c).db.runs.find? runId = (s.db.runs.find? runId).map a.apply := by
    rw [hruns, find?_updateRun_self]
  have hothers : ∀ k, k ≠ runId → (step s c).db.runs.find? k = s.db.runs.find? k := by
    intro k hne
    rw [hruns, find?_updateRun_of_ne a hne]
  constructor
  · intro hguarded
    constructor
    · intro run hfind hdone
      obtain ⟨run', hfind', hdone'⟩ :=
        hguarded.completed run (Table.mem_of_find? hfind) hdone
      rw [Table.key_of_find? hfind, hself, hfind, Option.map_some, Option.some.injEq] at hfind'
      rw [hfind']
      exact hdone'
    · intro hovertaken
      have hkept := hguarded.overtaken worker runId hwrites hovertaken
      rw [hself, hstate, map_eq_self, map_eq_self] at hkept
      exact hkept
  · rintro ⟨hcompleted, hovertaken⟩
    constructor
    · rintro r freshId rfl
      cases hwrites
    · intro worker' runId' hwrites'
      rw [hwrites] at hwrites'
      cases hwrites'
      intro hlost
      rw [hself, hstate, map_eq_self, map_eq_self]
      exact hovertaken hlost
    · intro run hrun hdone
      by_cases hkey : run.runId = runId
      · have hfind : s.db.runs.find? runId = some run := hkey ▸ Table.find?_of_mem hrun
        refine ⟨a.apply run, ?_, hcompleted run hfind hdone⟩
        rw [hkey, hself, hfind, Option.map_some]
      · refine ⟨run, ?_, hdone⟩
        rw [hothers _ hkey, Table.find?_of_mem hrun]

theorem counted_eq_self {counts : SyncCounts} {now : Str} {run : SyncRun} :
    (counted counts now).apply run = run ↔ run.counts = counts ∧ run.updatedAt = now := by
  cases run
  simp [counted, eq_comm]

theorem guarded_iff (s : State) (c : Call) : Guarded s c ↔ Fenced s c := by
  cases c with
  | claim r freshId => exact claim_guarded_iff s r freshId
  | count worker runId counts now =>
    have hwrite := write_guarded_iff (s := s) (c := .count worker runId counts now)
      (a := counted counts (isoUtc now)) (f := id) rfl rfl Option.map_id'.symm
    rw [hwrite]
    simp only [counted_eq_self, id_eq, implies_true, and_true]
    constructor
    · rintro ⟨-, h⟩
      exact h
    · intro h
      exact ⟨fun run _ hdone => hdone, h⟩
  | complete worker c =>
    have hwrite := write_guarded_iff (s := s) (c := .complete worker c)
      (a := completed c) (f := SyncState.advance c) rfl rfl rfl
    rw [hwrite]
    constructor
    · rintro ⟨-, h⟩
      exact h
    · intro h
      exact ⟨fun _ _ _ => rfl, h⟩
  | fail worker runId errorCode now maxAttempts attempts =>
    have hstatus : failureStatus maxAttempts attempts ≠ .completed := by
      unfold failureStatus
      split_ifs <;> exact fun h => by cases h
    have hwrite := write_guarded_iff (s := s)
      (c := .fail worker runId errorCode now maxAttempts attempts)
      (a := failedRun (failureStatus maxAttempts attempts) errorCode (isoUtc now))
      (f := id) rfl rfl Option.map_id'.symm
    rw [hwrite]
    simp only [id_eq, implies_true, and_true]
    constructor
    · rintro ⟨hcompleted, h⟩
      exact ⟨fun run hfind hdone => hstatus (hcompleted run hfind hdone), h⟩
    · rintro ⟨hopen, h⟩
      exact ⟨fun run hfind hdone => absurd hdone (hopen run hfind), h⟩

end Calls

section Attempts

variable {s : State}

def AttemptsWithin (limit : Int) (s : State) : Prop :=
  ∀ run ∈ s.db.runs.rows, run.attemptCount ≤ limit

/-- The number of attempts that a claim allows is within the limit. -/
def Call.Within (limit : Int) : Call → Prop
  | .claim r _ => max 1 r.maxAttempts ≤ limit
  | _ => True

theorem attemptsWithin_updateRun {limit : Int} {runId : Str} {a : RunAssignment} {s' : State}
    (hdb : s'.db.runs = (s.db.updateRun runId a).runs)
    (hset : ∀ run ∈ s.db.runs.rows, run.runId = runId → run.attemptCount ≤ limit →
      (a.apply run).attemptCount ≤ limit)
    (h : AttemptsWithin limit s) : AttemptsWithin limit s' := by
  intro row hrow
  rw [hdb] at hrow
  obtain ⟨run, hrun, rfl⟩ := Table.mem_update.1 hrow
  have hlimit := h run hrun
  by_cases hkey : run.runId = runId
  · simpa [hkey] using hset run hrun hkey hlimit
  · simpa [hkey] using hlimit

theorem attemptsWithin_step {limit : Int} (c : Call) (hc : c.Within limit)
    (h : AttemptsWithin limit s) : AttemptsWithin limit (step s c) := by
  cases c with
  | claim r freshId =>
    have hmax : max 1 r.maxAttempts ≤ limit := hc
    cases claim_spec s r freshId with
    | refused _ hdb _ =>
      intro run hrun
      rw [hdb] at hrun
      exact h run hrun
    | @created run runs _ hinsert hattempts hdb _ =>
      intro row hrow
      rw [hdb] at hrow
      rcases (Table.mem_insert? hinsert).1 hrow with hrow | rfl
      · exact h row hrow
      · omega
    | exhausted _ _ _ hdb _ =>
      exact attemptsWithin_updateRun (by rw [hdb]) (fun _ _ _ hlimit => hlimit) h
    | @taken run hrun _ hattempts _ hdb _ =>
      refine attemptsWithin_updateRun (by rw [hdb]) (fun row hrow hkey _ => ?_) h
      obtain rfl := s.db.runs.key_injective hrow (List.mem_of_find?_eq_some hrun) hkey
      have hnext : ((reclaimed r).apply row).attemptCount = row.attemptCount + 1 := rfl
      omega
  | _ => exact attemptsWithin_updateRun rfl (fun _ _ _ hlimit => hlimit) h

theorem attemptsWithin_after {limit : Int} (cursor : Option SyncState) (calls : List Call)
    (hcalls : ∀ c ∈ calls, c.Within limit) : AttemptsWithin limit (after cursor calls) := by
  refine @run_invariant_of_forall _ _ _ (AttemptsWithin limit) (fun _ c => c.Within limit)
    (fun _ c hc hs => attemptsWithin_step c hc hs) _ ?_ calls ?_
  · intro run hrun
    cases hrun
  · rintro before c rest rfl
    exact hcalls c (List.mem_append_right _ List.mem_cons_self)

end Attempts

section Claim

/-- Every call of the run respects the leases, and no run gets more attempts than its claims
allow. -/
def Respected (cursor : Option SyncState) (calls : List Call) : Prop :=
  (∀ before c rest, calls = before ++ c :: rest → Guarded (after cursor before) c) ∧
    ∀ limit, (∀ c ∈ calls, c.Within limit) → AttemptsWithin limit (after cursor calls)

/-- Sync processes respect each other's leases exactly in the runs where no claim finds a run that
another worker holds without attempts left, no worker writes anything new after it was overtaken,
and no completed run is failed. -/
theorem leases_respected_iff (cursor : Option SyncState) (calls : List Call) :
    Respected cursor calls ↔
      ∀ before c rest, calls = before ++ c :: rest → Fenced (after cursor before) c := by
  constructor
  · intro hrespected before c rest hsplit
    exact (guarded_iff _ c).1 (hrespected.1 before c rest hsplit)
  · intro hfenced
    refine ⟨fun before c rest hsplit => ?_, fun limit => attemptsWithin_after cursor calls⟩
    exact (guarded_iff _ c).2 (hfenced before c rest hsplit)

/-- The instant of so many minutes into a day. -/
def minute (n : Fin 1440) : Instant := 
  ⟨63871200000000000 + n.val * 60000000, minutes_lt_maxMicros n⟩

def activatedCursor : SyncState := ⟨minute 0, 5, none, none, none, minute 0⟩

def hourlyClaim (worker : Str) (now : Fin 1410) : ClaimRequest where
  bucketKey := text "2024-12-31T09"
  runKind := .scheduled
  leaseOwner := worker
  now := minute ⟨now, by omega⟩
  leaseExpiresAt := minute ⟨now + 30, by omega⟩
  staleBefore := minute ⟨now - 30, by omega⟩
  maxAttempts := 3

/-- A worker completes its run after another worker has claimed it. -/
def lateCompletion : List Call :=
  [.claim (hourlyClaim (text "a") 60) (text "run1"), .claim (hourlyClaim (text "b") 100) (text "run2"),
    .complete (text "a") ⟨text "run1", .zero, minute 101, 10, none, false⟩]

theorem leases_overrun_lateCompletion :
    lateCompletion.Pairwise (fun c d => c.now ≤ d.now) ∧
      ¬ Respected (some activatedCursor) lateCompletion := by
  refine ⟨by decide +kernel, fun h => ?_⟩
  have hlate := (h.1 (lateCompletion.take 2) _ [] rfl).overtaken (text "a") (text "run1") rfl
    ⟨by decide +kernel, by decide +kernel⟩
  have hcursor : (after (some activatedCursor) lateCompletion).db.state ≠
      (after (some activatedCursor) (lateCompletion.take 2)).db.state := by decide +kernel
  exact hcursor hlate.2

end Claim

end HardyAI.Email.SyncLeases
