import HardyAI.Core.ApprovedActionExecution
import HardyAI.Foundation.Threads
import HardyAI.Reviews.ProposalLifecycle

/-! A proposal is dispatched at most once more than its dispatches reported
that nothing happened. A claim moves a slot of the proposal to one thread, and
only a thread whose dispatch had no effect gives it back. -/

open Foundation Foundation.Json Foundation.Trace Foundation.Threads HardyAI.Jobs HardyAI.Reviews

namespace HardyAI.Core

variable {p : Str}

section Slot

/-- A claim of the proposal can still succeed. -/
def openState : ActionProposalState → Bool
  | .pending | .approved => true
  | .executing | .executed | .rejected | .expired | .superseded | .canceled | .denied
  | .failedTerminal => false

def slot (db : ReviewDb) (p : Str) : Nat :=
  if (db.proposal? p).all fun row => openState row.state then 1 else 0

theorem slot_le_one (db : ReviewDb) (p : Str) : slot db p ≤ 1 := by
  unfold slot
  split <;> omega

theorem slot_eq_zero {db : ReviewDb} :
    slot db p = 0 ↔ ∃ row, db.proposal? p = some row ∧ openState row.state = false := by
  unfold slot
  cases db.proposal? p <;> simp

theorem openState_of_case {c : Reviews.Call} {db : ReviewDb} {row row' : ActionProposal}
    {item item' : ReviewItem} (h : ProposalCase c db row item row' item')
    (hopen : openState row'.state = true) :
    openState row.state = true ∨ ∃ jobId workerId token reconciliation now,
      c = .retryActionExecutionAfterNoEffect row.proposalId jobId workerId token reconciliation
        now := by
  cases h with
  | kept h => exact .inl (h.state ▸ hopen)
  | reopened jobId workerId token reconciliation now hcall =>
    exact .inr ⟨jobId, workerId, token, reconciliation, now, hcall⟩
  | finished jobId workerId token outcome reason receipt fresh hcall houtcome =>
    obtain rfl | rfl | rfl := houtcome <;> simp [finishExecution, openState] at hopen
  | expired observed hcall hstate => simp [hstate, openState]
  | lapsed observed hcall hstate => simp [hstate, openState]
  | decided d fresh hcall hstate => simp [hstate, openState]
  | began jobId workerId token observed hcall hstate => simp [hstate, openState]
  | canceled reason now hcall hstate => simp [hstate, openState]
  | superseded replacement now hcall hstate => simp [hstate, openState]

variable [PythonText]

/-- Only the call that reopens a proposal can open its slot. -/
theorem slot_step {db : ReviewDb} (hv : DbValid db) (c : Reviews.Call)
    (hc : ∀ jobId workerId token reconciliation now,
      c ≠ .retryActionExecutionAfterNoEffect p jobId workerId token reconciliation now) :
    slot (Reviews.step db c) p ≤ slot db p := by
  by_contra hlt
  have hclosed : slot db p = 0 := by
    have := slot_le_one (Reviews.step db c) p
    omega
  obtain ⟨row, hrow, hstate⟩ := slot_eq_zero.1 hclosed
  obtain ⟨item, hitem, -⟩ := hv.paired row (Table.mem_of_find? hrow)
  obtain ⟨row', item', hrow', -, hcase⟩ := proposal_step hv c (Table.mem_of_find? hrow) hitem
  obtain rfl := Table.key_of_find? hrow
  refine hlt ?_
  rw [hclosed, Nat.le_zero, slot_eq_zero]
  refine ⟨row', hrow', Bool.not_eq_true _ ▸ fun hopen => ?_⟩
  obtain hold | ⟨jobId, workerId, token, reconciliation, now, hcall⟩ :=
    openState_of_case hcase hopen
  · rw [hstate] at hold
    exact Bool.noConfusion hold
  · exact hc jobId workerId token reconciliation now hcall

omit [PythonText] in
theorem arguments_of_mem {db : ReviewDb} (hv : DbValid db) {row : ActionProposal}
    (h : db.proposal? p = some row) :
    row.destinationArgumentsJson.isSome = true ↔ row.state.live = true := by
  obtain ⟨item, -, hpair⟩ := hv.paired row (Table.mem_of_find? h)
  exact hpair.arguments

/-- A claim that returns arguments has taken the slot. -/
theorem begin_slot {db db' : ReviewDb} {proposalId jobId workerId observed : Str} {token : Int}
    {row : ActionProposal} (hv : DbValid db)
    (h : beginActionExecution proposalId jobId workerId token observed db = .ok (row, db')) :
    slot db' p + (if row.proposalId = p ∧ row.destinationArgumentsJson.isSome then 1 else 0) ≤
      slot db p := by
  have hslot := slot_step (p := p) hv (.beginActionExecution proposalId jobId workerId token
    observed) (by simp)
  rw [Reviews.step, Transaction.commit_of_ok h] at hslot
  obtain ⟨rfl, hrow, hexecuted⟩ | ⟨old, hold, happroved, -, -, rfl, rfl⟩ :=
    beginActionExecution_spec h
  · have hnone : ¬ row.destinationArgumentsJson.isSome = true := by
      rw [arguments_of_mem hv hrow, hexecuted]
      simp [ActionProposalState.live]
    simp [hnone]
  · by_cases hp : proposalId = p
    · subst hp
      have hopen : slot db proposalId = 1 := by simp [slot, hold, happroved, openState]
      have hmoved := (updateProposal_moves (g := fun r => r.state = ActionProposalState.approved)
        (f := startExecution token observed) db proposalId).proposal? hold
      have hclosed : slot (db.updateProposal proposalId
          (fun r => r.state = ActionProposalState.approved) (startExecution token observed)).2
          proposalId = 0 := by
        rw [slot_eq_zero]
        refine ⟨_, hmoved, ?_⟩
        rw [if_pos (by simp [happroved, Table.key_of_find? hold])]
        rfl
      rw [hclosed, hopen]
      split <;> omega
    · have hother : ((startExecution token observed).apply old).proposalId ≠ p := by
        rw [(startExecution token observed).keeps, Table.key_of_find? hold]
        exact hp
      rw [if_neg (by simp [hother])]
      exact hslot

end Slot

section Weights

/-- The thread holds the claim of the proposal. -/
def holds (p : Str) : Phase → Nat
  | .begun _ proposal | .denying _ proposal _ =>
    if proposal.proposalId = p ∧ proposal.destinationArgumentsJson.isSome then 1 else 0
  | .dispatching _ proposal | .returned _ proposal _ => if proposal.proposalId = p then 1 else 0
  | .approved .. | .ended _ | .crashed => 0

variable [PythonText]

/-- The thread can still dispatch the proposal, or give it back. -/
def credit (p : Str) : Phase → Nat
  | .begun _ proposal =>
    if proposal.proposalId = p ∧ proposal.destinationArgumentsJson.isSome then 1 else 0
  | .returned _ proposal reply => if proposal.proposalId = p ∧ reply.noEffect then 1 else 0
  | .denying .. | .dispatching .. | .approved .. | .ended _ | .crashed => 0

theorem followUp_retry {reply : DispatchReply} (h : followUp reply = .ok .retry) :
    reply.noEffect = true := by
  cases reply with
  | raised => simp [followUp] at h
  | value v =>
    simp only [followUp, bind_eq_ok] at h
    obtain ⟨status, hstatus, h⟩ := h
    split at h
    · simp [bind_eq_ok] at h
    · split at h
      · next hretry => simp [DispatchReply.noEffect, hstatus, hretry.1, hretry.2]
      · obtain ⟨receipt, _, h⟩ := bind_eq_ok.1 h
        split at h <;> simp at h

theorem ended_weights {phase : Phase} (h : ∃ outcome, phase = .ended outcome) :
    holds p phase = 0 ∧ credit p phase = 0 := by
  obtain ⟨outcome, rfl⟩ := h
  exact ⟨rfl, rfl⟩

omit [PythonText] in
theorem afterFinish_ended (outcome : ActionProposalState) (reason : Str)
    (reply : Except PyError ActionProposal) :
    ∃ ending, afterFinish outcome reason reply = .ended ending := by
  cases reply with
  | error e => exact ⟨_, rfl⟩
  | ok row => cases outcome <;> exact ⟨_, rfl⟩

omit [PythonText] in
theorem afterRetry_ended (reply : Except PyError ActionProposal) :
    ∃ ending, afterRetry reply = .ended ending := by
  cases reply <;> exact ⟨_, rfl⟩

end Weights

section Accounts

variable [PythonText]

/-- How one event changes the account of a proposal. -/
structure Accounts (p : Str) (s s' : System) : Prop where
  holders : slot s'.db p + total (holds p) s'.threads ≤
    slot s.db p + total (holds p) s.threads
  credits : s'.dispatches p + slot s'.db p + total (credit p) s'.threads + s.noEffects p ≤
    s.dispatches p + slot s.db p + total (credit p) s.threads + s'.noEffects p
  still : slot s.db p + total (holds p) s.threads = 0 → s'.dispatches p = s.dispatches p

variable {s s' : System} {i : Nat} {old new : Phase}

theorem Accounts.refl (p : Str) (s : System) : Accounts p s s := ⟨le_rfl, le_rfl, fun _ => rfl⟩

omit [PythonText] in
theorem dispatches_of_log (h : s'.log = s.log) : s'.dispatches p = s.dispatches p := by
  rw [System.dispatches, h, System.dispatches]

theorem noEffects_of_log (h : s'.log = s.log) : s'.noEffects p = s.noEffects p := by
  rw [System.noEffects, h, System.noEffects]

theorem accounts_of_db (hthreads : s'.threads = s.threads) (hlog : s'.log = s.log)
    (hslot : slot s'.db p ≤ slot s.db p) : Accounts p s s' where
  holders := by
    rw [hthreads]
    omega
  credits := by
    rw [hthreads, dispatches_of_log hlog, noEffects_of_log hlog]
    omega
  still _ := dispatches_of_log hlog

/-- One thread moves, and the record stays. -/
theorem accounts_of_move (hi : s.threads[i]? = some old)
    (hthreads : s'.threads = s.threads.set i new) (hlog : s'.log = s.log)
    (hholds : slot s'.db p + holds p new ≤ slot s.db p + holds p old)
    (hcredit : slot s'.db p + credit p new ≤ slot s.db p + credit p old) :
    Accounts p s s' where
  holders := by
    have htotal := total_set (holds p) hi new
    rw [hthreads]
    omega
  credits := by
    have htotal := total_set (credit p) hi new
    rw [hthreads, dispatches_of_log hlog, noEffects_of_log hlog]
    omega
  still _ := dispatches_of_log hlog

theorem credit_afterBegin (claim : Claim) (reply : Except PyError ActionProposal) :
    credit p (afterBegin claim reply) = holds p (afterBegin claim reply) := by
  cases reply with
  | ok row => rfl
  | error e =>
    simp only [afterBegin]
    split <;> rfl

theorem begin_accounts {proposalId observed : Str} {claim : Claim} (hv : DbValid s.db)
    (hi : s.threads[i]? = some (.approved proposalId claim)) :
    Accounts p s (s.begin i proposalId claim observed) := by
  have hmove : slot (s.begin i proposalId claim observed).db p + holds p (afterBegin claim
      ((beginActionExecution proposalId claim.jobId claim.workerId claim.fencingToken
        observed).reply s.db)) ≤ slot s.db p := by
    simp only [System.begin, Transaction.reply]
    cases hbegin : beginActionExecution proposalId claim.jobId claim.workerId claim.fencingToken
        observed s.db with
    | error e =>
      rw [Transaction.commit_of_error hbegin, Except.map, afterBegin]
      split <;> exact le_rfl
    | ok reply =>
      obtain ⟨row, db'⟩ := reply
      rw [Transaction.commit_of_ok hbegin]
      exact begin_slot hv hbegin
  exact accounts_of_move hi rfl rfl hmove (by rw [credit_afterBegin]; exact hmove)

theorem finish_accounts {claim : Claim} {proposal : ActionProposal}
    {outcome : ActionProposalState} {reason : Str} {receipt : Option Str} {fresh : Fresh}
    (hv : DbValid s.db) (hi : s.threads[i]? = some old) :
    Accounts p s (s.finish i claim proposal outcome reason receipt fresh) := by
  have hslot := slot_step (p := p) hv (.finishActionExecution proposal.proposalId claim.jobId
    claim.workerId claim.fencingToken outcome reason receipt fresh) (by simp)
  obtain ⟨hholds, hcredit⟩ := ended_weights (p := p) (afterFinish_ended outcome reason
    ((finishActionExecution proposal.proposalId claim.jobId claim.workerId claim.fencingToken
      outcome reason receipt fresh).reply s.db))
  exact accounts_of_move hi rfl rfl (by rw [hholds]; exact Nat.le_add_right_of_le hslot)
    (by rw [hcredit]; exact Nat.le_add_right_of_le hslot)

theorem retry_accounts {claim : Claim} {proposal : ActionProposal} {reply : DispatchReply}
    {now : Instant} (hv : DbValid s.db) (hi : s.threads[i]? = some (.returned claim proposal reply))
    (hreply : reply.noEffect = true) : Accounts p s (s.retry i claim proposal now) := by
  obtain ⟨hholds, hcredit⟩ := ended_weights (p := p) (afterRetry_ended
    ((retryActionExecutionAfterNoEffect proposal.proposalId claim.jobId claim.workerId
      claim.fencingToken "no_effect" now).reply s.db))
  have hle := slot_le_one (s.retry i claim proposal now).db p
  by_cases hp : proposal.proposalId = p
  · refine accounts_of_move hi rfl rfl ?_ ?_
    · rw [hholds, holds, if_pos hp]
      omega
    · rw [hcredit, credit, if_pos ⟨hp, hreply⟩]
      omega
  · have hslot := slot_step (p := p) hv (.retryActionExecutionAfterNoEffect proposal.proposalId
      claim.jobId claim.workerId claim.fencingToken "no_effect" now) (by simp [hp])
    exact accounts_of_move hi rfl rfl (by rw [hholds]; exact Nat.le_add_right_of_le hslot)
      (by rw [hcredit]; exact Nat.le_add_right_of_le hslot)

/-- A thread that ends takes nothing from the account. -/
theorem ended_accounts {outcome : Except PyError Outcome} (hi : s.threads[i]? = some old) :
    Accounts p s (s.move i (.ended outcome)) :=
  accounts_of_move hi rfl rfl (Nat.le_add_right ..) (Nat.le_add_right ..)

theorem counts_of_dispatched {q : Str} (hlog : s'.log = s.log ++ [.dispatched q]) :
    s'.dispatches p = s.dispatches p + (if q = p then 1 else 0) ∧
      s'.noEffects p = s.noEffects p := by
  rw [System.dispatches, System.noEffects, hlog]
  simp [List.countP_append, List.countP_singleton, System.dispatches, System.noEffects]

theorem counts_of_replied {q : Str} {reply : DispatchReply}
    (hlog : s'.log = s.log ++ [.replied q reply]) :
    s'.dispatches p = s.dispatches p ∧
      s'.noEffects p = s.noEffects p + (if q = p ∧ reply.noEffect then 1 else 0) := by
  rw [System.dispatches, System.noEffects, hlog]
  simp [List.countP_append, List.countP_singleton, System.dispatches, System.noEffects]

omit [PythonText] in
theorem arguments_of_reauthorized {proposal : ActionProposal} {answers : Answers}
    (h : reauthorizationFailure proposal answers = none) :
    proposal.destinationArgumentsJson.isSome = true := by
  unfold reauthorizationFailure at h
  split at h
  · simp at h
  · next harguments => simpa [Option.isSome_iff_ne_none] using harguments

theorem answer_accounts {claim : Claim} {proposal : ActionProposal} (answers : Option Answers)
    (hi : s.threads[i]? = some (.begun claim proposal)) :
    Accounts p s (s.answer i claim proposal answers) := by
  cases answers with
  | none => exact ended_accounts hi
  | some answers =>
    simp only [System.answer]
    split
    · exact accounts_of_move hi rfl rfl le_rfl (Nat.le_add_right ..)
    · next hpassed =>
      -- The dispatch spends the credit of the claim; the thread keeps holding it.
      have harguments := arguments_of_reauthorized hpassed
      have hheld := total_set (holds p) hi (.dispatching claim proposal)
      have hspent := total_set (credit p) hi (.dispatching claim proposal)
      have hle := le_total (holds p) hi
      have hlog : { s.move i (.dispatching claim proposal) with
          log := s.log ++ [Entry.dispatched proposal.proposalId] }.log =
          s.log ++ [.dispatched proposal.proposalId] := rfl
      obtain ⟨hdispatches, hnoEffects⟩ := counts_of_dispatched (p := p) hlog
      simp only [holds, credit, harguments, and_true] at hheld hspent hle
      refine ⟨?_, ?_, fun hzero => ?_⟩
      · show slot s.db p + total _ (s.threads.set _ _) ≤ _
        omega
      · rw [hdispatches, hnoEffects]
        show _ + slot s.db p + total _ (s.threads.set _ _) + _ ≤ _
        omega
      · rw [hdispatches]
        omega

theorem reply_accounts {claim : Claim} {proposal : ActionProposal} (reply : DispatchReply)
    (hi : s.threads[i]? = some (.dispatching claim proposal)) :
    Accounts p s { s.move i (.returned claim proposal reply) with
      log := s.log ++ [.replied proposal.proposalId reply] } := by
  have hheld := total_set (holds p) hi (.returned claim proposal reply)
  have hearned := total_set (credit p) hi (.returned claim proposal reply)
  have hlog : { s.move i (.returned claim proposal reply) with
      log := s.log ++ [Entry.replied proposal.proposalId reply] }.log =
      s.log ++ [.replied proposal.proposalId reply] := rfl
  obtain ⟨hdispatches, hnoEffects⟩ := counts_of_replied (p := p) hlog
  simp only [holds, credit] at hheld hearned
  refine ⟨?_, ?_, fun _ => hdispatches⟩
  · show slot s.db p + total _ (s.threads.set _ _) ≤ _
    omega
  · rw [hdispatches, hnoEffects]
    show _ + slot s.db p + total _ (s.threads.set _ _) + _ ≤ _
    omega

theorem load_weights {db : ReviewDb} {job : ExecutionJob} {phase : Phase}
    (h : load db job = .ok phase) : holds p phase = 0 ∧ credit p phase = 0 := by
  simp only [load, bind_eq_ok] at h
  obtain ⟨proposalId, _, h⟩ := h
  split at h
  · obtain rfl := Except.ok.inj h
    exact ⟨rfl, rfl⟩
  · obtain ⟨matched, _, h⟩ := bind_eq_ok.1 h
    split at h
    · obtain rfl := Except.ok.inj h
      exact ⟨rfl, rfl⟩
    · split at h
      all_goals first
        | obtain rfl := Except.ok.inj h
          exact ⟨rfl, rfl⟩
        | split at h <;> obtain rfl := Except.ok.inj h <;> exact ⟨rfl, rfl⟩

theorem started_accounts {phase : Phase} (hholds : holds p phase = 0)
    (hcredit : credit p phase = 0) :
    Accounts p s { s with threads := s.threads ++ [phase] } where
  holders := by
    rw [total_concat, hholds]
    exact le_rfl
  credits := by
    rw [total_concat, hcredit]
    exact le_rfl
  still _ := rfl

/-- What any event does to the account of any proposal. -/
theorem step_accounts (hv : DbValid s.db) (e : Event) (p : Str) : Accounts p s (s.step e) := by
  cases e with
  | call c =>
    refine accounts_of_db rfl rfl (slot_step hv c.1 fun _ _ _ _ _ hc => ?_)
    have hnot := c.2
    rw [hc] at hnot
    exact Bool.noConfusion hnot
  | execute job =>
    dsimp only [System.step]
    split
    · next phase hload =>
      obtain ⟨hholds, hcredit⟩ := load_weights hload
      exact started_accounts hholds hcredit
    · exact started_accounts rfl rfl
  | begin i observed =>
    dsimp only [System.step]
    split
    · next hi => exact begin_accounts hv hi
    · exact Accounts.refl p s
  | answer i answers =>
    dsimp only [System.step]
    split
    · next hi => exact answer_accounts answers hi
    · exact Accounts.refl p s
  | reply i reply =>
    dsimp only [System.step]
    split
    · next hi => exact reply_accounts reply hi
    · exact Accounts.refl p s
  | finish i fresh =>
    dsimp only [System.step]
    split
    · next hi => exact finish_accounts hv hi
    · next hi =>
      unfold System.followUp
      split
      · exact ended_accounts hi
      · exact finish_accounts hv hi
      · next hretry => exact retry_accounts hv hi (followUp_retry hretry)
    · exact Accounts.refl p s
  | crash i =>
    cases hi : s.threads[i]? with
    | none =>
      have hsame : s.threads.set i .crashed = s.threads :=
        List.set_eq_of_length_le (List.getElem?_eq_none_iff.1 hi)
      exact accounts_of_db hsame rfl le_rfl
    | some old =>
      exact accounts_of_move hi rfl rfl (Nat.le_add_right ..) (Nat.le_add_right ..)

end Accounts

section Runs

variable [PythonText] {s : System}

theorem step_db (s : System) (e : Event) :
    (s.step e).db = s.db ∨ ∃ c, (s.step e).db = Reviews.step s.db c := by
  cases e with
  | call c => exact .inr ⟨c.1, rfl⟩
  | execute job =>
    dsimp only [System.step]
    split <;> exact .inl rfl
  | begin i observed =>
    dsimp only [System.step]
    split
    · exact .inr ⟨.beginActionExecution .., rfl⟩
    · exact .inl rfl
  | answer i answers =>
    dsimp only [System.step]
    split
    · cases answers with
      | none => exact .inl rfl
      | some answers =>
        simp only [System.answer]
        split <;> exact .inl rfl
    · exact .inl rfl
  | reply i reply =>
    dsimp only [System.step]
    split <;> exact .inl rfl
  | finish i fresh =>
    dsimp only [System.step]
    split
    · exact .inr ⟨.finishActionExecution .., rfl⟩
    · unfold System.followUp
      split
      · exact .inl rfl
      · exact .inr ⟨.finishActionExecution .., rfl⟩
      · exact .inr ⟨.retryActionExecutionAfterNoEffect .., rfl⟩
    · exact .inl rfl
  | crash i => exact .inl rfl

/-- What holds of every reachable system: the slot and the claims of a proposal are one at
most, and its dispatches are paid for. -/
structure Sound (p : Str) (s : System) : Prop where
  valid : DbValid s.db
  holders : slot s.db p + total (holds p) s.threads ≤ 1
  credits : s.dispatches p + slot s.db p + total (credit p) s.threads ≤ 1 + s.noEffects p

theorem initial_sound (p : Str) : Sound p .initial where
  valid := empty_valid
  holders := le_rfl
  credits := le_rfl

theorem step_db_valid (hv : DbValid s.db) (e : Event) : DbValid (s.step e).db := by
  obtain h | ⟨c, h⟩ := step_db s e
  · rwa [h]
  · rw [h]
    exact step_valid hv c

theorem step_sound (h : Sound p s) (e : Event) : Sound p (s.step e) := by
  have haccounts := step_accounts h.valid e p
  refine ⟨step_db_valid h.valid e, haccounts.holders.trans h.holders, ?_⟩
  have hcredits := haccounts.credits
  have hbound := h.credits
  omega

theorem reachable_sound (p : Str) (es : List Event) : Sound p (systemAfter es) := by
  have hstep : ∀ s e, Sound p s → Sound p (System.step s e) := fun _ e h => step_sound h e
  exact run_invariant hstep (initial_sound p) es

/-- No thread can dispatch the proposal any more. -/
structure Spent (p : Str) (n : Nat) (s : System) : Prop where
  valid : DbValid s.db
  none : slot s.db p + total (holds p) s.threads = 0
  dispatches : s.dispatches p = n

theorem step_spent {n : Nat} (h : Spent p n s) (e : Event) : Spent p n (s.step e) := by
  have haccounts := step_accounts h.valid e p
  refine ⟨step_db_valid h.valid e, ?_, (haccounts.still h.none).trans h.dispatches⟩
  have hholders := haccounts.holders
  have hnone := h.none
  omega

theorem run_spent {n : Nat} (h : Spent p n s) (es : List Event) :
    Spent p n (run System.step s es) := by
  have hstep : ∀ s e, Spent p n s → Spent p n (System.step s e) := fun _ e h => step_spent h e
  exact run_invariant hstep h es

/-- The crash of the thread that holds a claim spends the proposal. -/
theorem crash_spent {i : Nat} {phase : Phase} (h : Sound p s) (hi : s.threads[i]? = some phase)
    (hholds : holds p phase = 1) : Spent p (s.dispatches p) (s.step (.crash i)) where
  valid := h.valid
  none := by
    have htotal := total_set (holds p) hi .crashed
    have hholders := h.holders
    show slot s.db p + total (holds p) (s.threads.set i .crashed) = 0
    have hcrashed : holds p .crashed = 0 := rfl
    omega
  dispatches := rfl

/-- A proposal in `EXECUTING` that no thread holds is spent. -/
theorem executing_spent {row : ActionProposal} (h : Sound p s) (hrow : s.db.proposal? p = some row)
    (hstate : row.state = .executing) (hfree : ∀ phase ∈ s.threads, holds p phase = 0) :
    Spent p (s.dispatches p) s where
  valid := h.valid
  none := by
    have hslot : slot s.db p = 0 := slot_eq_zero.2 ⟨row, hrow, by rw [hstate]; rfl⟩
    rw [hslot, total_eq_zero hfree]
  dispatches := rfl

/-- After any events, a proposal has been dispatched at most once more than its dispatches have
returned `retryable_error` without a committed effect. Once the thread that holds its claim has
crashed, or it is in `EXECUTING` and no thread holds it, it is never dispatched again. -/
theorem dispatch_at_most_once (es : List Event) (p : Str) :
    (systemAfter es).dispatches p ≤ 1 + (systemAfter es).noEffects p ∧
    (∀ i phase, (systemAfter es).threads[i]? = some phase → holds p phase = 1 →
      ∀ more, (systemAfter (es ++ .crash i :: more)).dispatches p =
        (systemAfter es).dispatches p) ∧
    ∀ row, (systemAfter es).db.proposal? p = some row → row.state = .executing →
      (∀ phase ∈ (systemAfter es).threads, holds p phase = 0) →
      ∀ more, (systemAfter (es ++ more)).dispatches p = (systemAfter es).dispatches p := by
  have hsound := reachable_sound p es
  refine ⟨?_, fun i phase hi hholds more => ?_, fun row hrow hstate hfree more => ?_⟩
  · have hcredits := hsound.credits
    omega
  · have hspent := run_spent (crash_spent hsound hi hholds) more
    rw [systemAfter, run_append]
    exact hspent.dispatches
  · have hspent := run_spent (executing_spent hsound hrow hstate hfree) more
    rw [systemAfter, run_append]
    exact hspent.dispatches

end Runs

section Sample

def sampleJob : ExecutionJob where
  jobId := "j1"
  leaseOwner := some "w1"
  leaseFencingToken := 1
  payload := .obj [("proposal_id", .str "p1"), ("review_id", .str "r1"),
    ("operation_id", .str "op1"), ("authorization_binding", .str "a1"),
    ("batch_manifest_hash", .null), ("transfer_binding_hash", .null)]

def sampleAnswers : Answers where
  binding := some ⟨true, "u1", "agent"⟩
  prepared := .ready (some ⟨"op1", "x1", "a1"⟩) "d1" "d1" "1"
  batchFailure := none
  transferFailure := none
  dispatchable := true

/-- A proposal that is approved, claimed and dispatched. -/
def dispatchedRun : List Event :=
  [.call ⟨.createActionProposal sampleRequest
      { proposalId := "p1", reviewId := "r1", now := ⟨0, zero_lt_maxMicros⟩ }, rfl⟩,
    .call ⟨.decideActionProposal (sampleDecision .approve)
      { decisionId := "d1", jobId := "j1", now := ⟨1000000, second_lt_maxMicros⟩ }, rfl⟩,
    .call ⟨.job (.claimJobs reviewActionExecutionJob "w1" 10 (.micros 30000000)
      ⟨2000000, twoSeconds_lt_maxMicros⟩), rfl⟩,
    .execute sampleJob,
    .begin 0 (isoUtc ⟨3000000, threeSeconds_lt_maxMicros⟩),
    .answer 0 (some sampleAnswers)]

theorem dispatch_at_most_once_dispatchedRun :
    (@systemAfter asciiText dispatchedRun).dispatches "p1" = 1 ∧
    ∀ more, (@systemAfter asciiText (dispatchedRun ++ .crash 0 :: more)).dispatches "p1" = 1 := by
  have hone : (@systemAfter asciiText dispatchedRun).dispatches "p1" = 1 := by decide +kernel
  have hholds : (@systemAfter asciiText dispatchedRun).threads[0]?.map (holds "p1") = some 1 := by
    decide +kernel
  obtain ⟨phase, hi, hphase⟩ := Option.map_eq_some_iff.1 hholds
  obtain ⟨-, hcrash, -⟩ := @dispatch_at_most_once asciiText dispatchedRun "p1"
  exact ⟨hone, fun more => (hcrash 0 phase hi hphase more).trans hone⟩

end Sample

end HardyAI.Core
