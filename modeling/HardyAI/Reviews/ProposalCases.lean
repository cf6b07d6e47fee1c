import HardyAI.Reviews.Runs

/-! Every call changes a proposal and its review item in one of the ways of
`ProposalCase`, and only `create_action_proposal` adds a proposal. -/

open Foundation Foundation.Json Foundation.Trace HardyAI.Jobs

namespace HardyAI.Reviews

variable {db db' : ReviewDb} {p : ActionProposal} {item : ReviewItem} {k : Str}

section Moves

/-- One guarded update of the proposals and one of the review items; the other tables may
change in any way. -/
structure Moves (db db' : ReviewDb) (gp : ActionProposal → Bool) (fp : ProposalAssignment)
    (gi : ReviewItem → Bool) (fi : Table.Assignment ReviewItem.reviewId) : Prop where
  proposals : db'.proposals = db.proposals.update gp fp.toAssignment
  items : db'.items = db.items.update gi fi

variable {gp : ActionProposal → Bool} {fp : ProposalAssignment} {gi : ReviewItem → Bool}
  {fi : Table.Assignment ReviewItem.reviewId}

theorem Moves.proposal? (h : Moves db db' gp fp gi fi) (hp : db.proposal? k = some p) :
    db'.proposal? k = some (if gp p then fp.apply p else p) := by
  have hfind : db.proposals.find? k = some p := hp
  rw [ReviewDb.proposal?, h.proposals, Table.find?_update, hfind, Option.map_some]

theorem Moves.item? (h : Moves db db' gp fp gi fi) (hitem : db.item? k = some item) :
    db'.item? k = some (if gi item then fi.apply item else item) := by
  have hfind : db.items.find? k = some item := hitem
  rw [ReviewDb.item?, h.items, Table.find?_update, hfind, Option.map_some]

theorem Moves.ids (h : Moves db db' gp fp gi fi) :
    db'.proposals.rows.map (fun p => (p.proposalId, p.reviewId)) =
      db.proposals.rows.map (fun p => (p.proposalId, p.reviewId)) := by
  rw [h.proposals]
  exact Table.map_update_of_eq _ fun r => by rw [fp.keeps, fp.keepsReview]

/-- Nothing moves under guards that never hold. -/
theorem Moves.still (hproposals : db'.proposals = db.proposals) (hitems : db'.items = db.items) :
    Moves db db' (fun _ => false) (setOutcome [] [] [] []) (fun _ => false)
      (moveItem .expired []) where
  proposals := by rw [hproposals, Table.update_eq_self fun _ _ => rfl]
  items := by rw [hitems, Table.update_eq_self fun _ _ => rfl]

end Moves

section Statements

variable {g : ActionProposal → Bool} {f : ProposalAssignment} {proposalId : Str}

theorem updateProposal_moves (db : ReviewDb) (proposalId : Str) :
    Moves db (db.updateProposal proposalId g f).2 (fun r => r.proposalId = proposalId && g r) f
      (fun _ => false) (moveItem .expired []) where
  proposals := rfl
  items := (Table.update_eq_self fun _ _ => rfl).symm

theorem updateProposal_fst :
    (db.updateProposal k g f).1 = true ↔ ∃ p, db.proposal? k = some p ∧ g p = true := by
  show (db.proposals.updateKey k g f.toAssignment).1 = true ↔ _
  exact Table.updateKey_fst

/-- The row that a guarded update reports after it has succeeded. -/
theorem updateProposal_row {row : ActionProposal} (hp : db.proposal? k = some p) (hg : g p = true)
    (h : (db.updateProposal k g f).2.proposal? k = some row) : row = f.apply p := by
  have hmoved := (updateProposal_moves (g := g) (f := f) db k).proposal? hp
  rw [h, if_pos (by simp [hg, Table.key_of_find? hp])] at hmoved
  exact Option.some.inj hmoved

theorem proposalForReview?_eq_some (h : db.proposalForReview? k = some p) :
    p ∈ db.proposals.rows ∧ p.reviewId = k :=
  ⟨List.mem_of_find?_eq_some h, by simpa using List.find?_some h⟩

theorem proposalForReview?_eq_none (h : db.proposalForReview? k = none)
    (hp : p ∈ db.proposals.rows) : p.reviewId ≠ k := by
  rw [ReviewDb.proposalForReview?, List.find?_eq_none] at h
  simpa using h p hp

theorem named_eq_ok {α : Type} {row : Option α} {a : α} : named row = .ok a ↔ row = some a := by
  cases row <;> simp [named]

theorem found_eq_ok {α : Type} {row : Option α} {m : String} {a : α} :
    found row m = .ok a ↔ row = some a := by
  cases row <;> simp [found]

theorem insertItem_spec {new : ReviewItem} (h : db.insertItem new = .ok db') :
    db.item? new.reviewId = none ∧ db'.proposals = db.proposals ∧ db'.jobs = db.jobs ∧
      ∀ k, db'.item? k = if new.reviewId = k then some new else db.item? k := by
  unfold ReviewDb.insertItem at h
  split at h
  · next items hinsert =>
    obtain rfl := Except.ok.inj h
    have hinsert := (Table.insertApart?_eq_some.1 hinsert).2
    exact ⟨(Table.insert?_eq_some hinsert).1, rfl, rfl, fun k => Table.find?_insert? hinsert k⟩
  · simp at h

theorem insertDecision_spec {new : ReviewDecision} (h : db.insertDecision new = .ok db') :
    db'.proposals = db.proposals ∧ db'.items = db.items ∧ db'.jobs = db.jobs := by
  unfold ReviewDb.insertDecision at h
  split at h
  · obtain rfl := Except.ok.inj h
    exact ⟨rfl, rfl, rfl⟩
  · simp at h

theorem insertProposal_spec {new : ActionProposal} (h : db.insertProposal new = .ok db') :
    db.proposal? new.proposalId = none ∧ (∀ old ∈ db.proposals.rows, old.reviewId ≠ new.reviewId) ∧
      db'.items = db.items ∧ db'.proposals.rows = db.proposals.rows ++ [new] ∧
      ∀ k, db'.proposal? k = if new.proposalId = k then some new else db.proposal? k := by
  unfold ReviewDb.insertProposal at h
  split at h
  · next proposals hinsert =>
    split at h
    · simp at h
    · obtain rfl := Except.ok.inj h
      obtain ⟨hclash, hinsert⟩ := Table.insertApart?_eq_some.1 hinsert
      obtain ⟨hfresh, hrows⟩ := Table.insert?_eq_some hinsert
      refine ⟨hfresh, fun old hold => ?_, rfl, hrows, fun k => Table.find?_insert? hinsert k⟩
      have hapart := hclash old hold
      simp only [decide_eq_false_iff_not, not_or] at hapart
      exact hapart.1
  · simp at h

variable [PythonText]

theorem enqueue_spec {a : EnqueueArgs} {now : Instant} {job : DurableJob}
    (h : db.enqueue a now = .ok (job, db')) :
    db'.proposals = db.proposals ∧ db'.items = db.items ∧ db'.decisions = db.decisions := by
  simp only [ReviewDb.enqueue, bind_eq_ok, Except.ok.injEq, Prod.mk.injEq] at h
  obtain ⟨_, _, _, rfl⟩ := h
  exact ⟨rfl, rfl, rfl⟩

end Statements

section Specs

variable {jobId workerId reason : Str} {token : Int} {now : Instant}
  {row : ActionProposal} {proposalId purpose guild channel message : Str} {fresh : Fresh}

theorem expireDue_moves (observed : Str) :
    Moves db ((expireDue observed).commit db)
      (fun p => dueIn .pending observed p || dueIn .approved observed p)
      (closeProposal .expired "approval_expired" observed)
      (fun r => r.state = .pending && r.expiresAt.any (· ≤ observed))
      (moveItem .expired observed) := by
  refine ⟨Table.update_update _ fun p _ => ?_, rfl⟩
  simp [dueIn, closeProposal]

theorem markActionNotificationDelivered_spec
    (h : markActionNotificationDelivered proposalId purpose guild channel message now db =
      .ok (row, db')) :
    db' = db ∨ ∃ g, db' = (db.updateProposal proposalId g
      (setNotification guild channel message (isoUtc now))).2 := by
  simp only [markActionNotificationDelivered, bind_eq_ok] at h
  obtain ⟨_, _, _, _, h⟩ := h
  split at h
  · simp only [bind_eq_ok, Except.ok.injEq, Prod.mk.injEq] at h
    obtain ⟨_, _, _, rfl⟩ := h
    exact .inl rfl
  · simp only [bind_eq_ok, Except.ok.injEq, Prod.mk.injEq] at h
    obtain ⟨_, _, _, _, _, _, _, rfl⟩ := h
    exact .inr ⟨_, rfl⟩

theorem markActionOutcomeDelivered_spec
    (h : markActionOutcomeDelivered proposalId purpose guild channel message now db =
      .ok (row, db')) :
    db' = db ∨ ∃ g, db' = (db.updateProposal proposalId g
      (setOutcome guild channel message (isoUtc now))).2 := by
  simp only [markActionOutcomeDelivered, bind_eq_ok] at h
  obtain ⟨_, _, h⟩ := h
  split at h
  · simp only [bind_eq_ok, Except.ok.injEq, Prod.mk.injEq] at h
    obtain ⟨_, _, _, rfl⟩ := h
    exact .inl rfl
  · simp only [bind_eq_ok, Except.ok.injEq, Prod.mk.injEq] at h
    obtain ⟨_, _, _, _, _, _, _, _, _, rfl⟩ := h
    exact .inr ⟨_, rfl⟩

theorem jobHeld_of_filter {job : Option DurableJob} {g : DurableJob → Bool}
    (h : jobHeld (job.filter g) workerId token = true) : jobHeld job workerId token = true := by
  cases job with
  | none => simp [jobHeld] at h
  | some j =>
    rw [Option.filter_some] at h
    split at h
    · exact h
    · simp [jobHeld] at h

theorem beginActionExecution_spec {observed : Str}
    (h : beginActionExecution proposalId jobId workerId token observed db = .ok (row, db')) :
    (db' = db ∧ db.proposal? proposalId = some row ∧ row.state = .executed) ∨
    ∃ p, db.proposal? proposalId = some p ∧ p.state = .approved ∧
      jobHeld (db.jobs.find? jobId) workerId token = true ∧ p.executionJobId.getD [] = jobId ∧
      row = (startExecution token observed).apply p ∧
      db' = (db.updateProposal proposalId (fun p => p.state = .approved)
        (startExecution token observed)).2 := by
  simp only [beginActionExecution, bind_eq_ok, named_eq_ok] at h
  obtain ⟨p, hp, h⟩ := h
  split at h
  · next hexecuted =>
    simp only [Except.ok.injEq, Prod.mk.injEq] at h
    obtain ⟨rfl, rfl⟩ := h
    exact .inl ⟨rfl, hp, hexecuted⟩
  · simp only [bind_eq_ok, require_eq_ok, Except.ok.injEq, Prod.mk.injEq, found_eq_ok,
      decide_eq_true_eq, Bool.and_eq_true] at h
    obtain ⟨_, _, _, happroved, _, ⟨hheld, hjob⟩, _, _, r, hr, rfl, rfl⟩ := h
    exact .inr ⟨p, hp, happroved, jobHeld_of_filter hheld, hjob,
      updateProposal_row hp (by simp [happroved]) hr, rfl⟩

theorem retryActionExecutionAfterNoEffect_spec [PythonText] {reconciliation : Str}
    (h : retryActionExecutionAfterNoEffect proposalId jobId workerId token reconciliation now db =
      .ok (row, db')) :
    ∃ p, db.proposal? proposalId = some p ∧ p.state = .executing ∧
      p.executionJobId = some jobId ∧ p.executionFencingToken = some token ∧
      jobHeld (db.jobs.find? jobId) workerId token = true ∧
      db' = (db.updateProposal proposalId (fun r => r.state = .executing &&
        r.executionJobId = some jobId && r.executionFencingToken = some token)
        (reopenExecution (isoUtc now))).2 := by
  simp only [retryActionExecutionAfterNoEffect, bind_eq_ok, require_eq_ok, Except.ok.injEq,
    Prod.mk.injEq, found_eq_ok] at h
  obtain ⟨_, _, _, hchanged, r, hr, rfl, rfl⟩ := h
  obtain ⟨p, hp, hg⟩ := updateProposal_fst.1 hchanged
  simp only [Bool.and_eq_true, decide_eq_true_eq] at hg
  obtain ⟨⟨⟨hstate, hjob⟩, htoken⟩, hleased⟩ := hg
  refine ⟨p, hp, hstate, hjob, htoken, ?_, ?_⟩
  · revert hleased
    cases db.jobs.find? jobId with
    | none => simp
    | some j => simp +contextual [jobHeld]
  · simp [hleased]

theorem cancelApprovedAction_spec
    (h : cancelApprovedAction proposalId reason now db = .ok (row, db')) :
    db' = db ∨ ∃ p jobs, db.proposal? proposalId = some p ∧ p.state = .approved ∧
      db' = ({ db with jobs }.updateProposal proposalId (fun r => r.state = ActionProposalState.approved)
        (closeProposal .canceled ((orDefault reason "operator_canceled").take 120)
          (isoUtc now))).2 := by
  simp only [cancelApprovedAction, bind_eq_ok, named_eq_ok] at h
  obtain ⟨p, hp, h⟩ := h
  split at h
  · simp only [Except.ok.injEq, Prod.mk.injEq] at h
    exact .inl h.2.symm
  · simp only [bind_eq_ok, require_eq_ok, decide_eq_true_eq, Except.ok.injEq, Prod.mk.injEq] at h
    obtain ⟨_, happroved, _, _, _, _, _, _, _, rfl⟩ := h
    exact .inr ⟨p, _, hp, happroved, rfl⟩

theorem create_spec [PythonText] {request : ReviewRequest} {item : ReviewItem}
    (h : create request fresh db = .ok (item, db')) :
    db'.proposals = db.proposals ∧ ∀ k old, db.item? k = some old → db'.item? k = some old := by
  simp only [create, bind_eq_ok] at h
  obtain ⟨_, _, _, _, h⟩ := h
  split at h
  · simp at h
  · split at h
    · simp only [bind_eq_ok, Except.ok.injEq, Prod.mk.injEq] at h
      obtain ⟨_, rfl, _, _, _, rfl⟩ := h
      exact ⟨rfl, fun _ _ hold => hold⟩
    · simp only [bind_eq_ok, Except.ok.injEq, Prod.mk.injEq] at h
      obtain ⟨_, hwritten, _, _, _, rfl⟩ := h
      obtain ⟨hnone, hproposals, _, hitem⟩ := insertItem_spec hwritten
      refine ⟨hproposals, fun k old hold => ?_⟩
      rw [hitem, if_neg, hold]
      rintro rfl
      rw [hnone] at hold
      simp at hold

theorem decide_spec {itemHash actor key : Str} {edited : Option Str} {kind : ReviewDecisionKind}
    {decision : ReviewDecision}
    (h : decide k itemHash kind actor reason key edited fresh db = .ok (decision, db')) :
    db.proposalForReview? k = none ∧ db'.proposals = db.proposals ∧
      (db'.items = db.items ∨ ∃ g f, db'.items = (db.items.updateKey k g f).2) := by
  simp only [decide, bind_eq_ok, require_eq_ok, Option.isNone_iff_eq_none] at h
  obtain ⟨_, hnone, h⟩ := h
  refine ⟨hnone, ?_⟩
  split at h
  · simp only [Except.ok.injEq, Prod.mk.injEq] at h
    obtain ⟨_, rfl⟩ := h
    exact ⟨rfl, .inl rfl⟩
  · simp only [bind_eq_ok, Except.ok.injEq, Prod.mk.injEq] at h
    obtain ⟨_, _, _, _, _, _, _, _, written, hwritten, _, _, _, rfl⟩ := h
    obtain ⟨hproposals, hitems, -⟩ := insertDecision_spec hwritten
    exact ⟨hproposals, .inr ⟨fun r => r.state = .pending, _, by rw [← hitems]; rfl⟩⟩

theorem markApplied_spec {receipt : Option Str} {decisionId : Str} {applied : Bool}
    (h : markApplied decisionId receipt now db = .ok (applied, db')) :
    db' = db ∨ ∃ review, db.proposalForReview? review = none ∧ db'.proposals = db.proposals ∧
      ∃ g f, db'.items = (db.items.updateKey review g f).2 := by
  simp only [markApplied] at h
  split at h
  · simp only [Except.ok.injEq, Prod.mk.injEq] at h
    exact .inl h.2.symm
  · split at h
    · simp only [bind_eq_ok, require_eq_ok, Option.isNone_iff_eq_none, Except.ok.injEq,
        Prod.mk.injEq] at h
      obtain ⟨_, hnone, _, rfl⟩ := h
      exact .inr ⟨_, hnone, rfl, _, _, rfl⟩
    · simp only [Except.ok.injEq, Prod.mk.injEq] at h
      exact .inl h.2.symm

theorem supersede_spec {replacement : Str} {changed : Bool}
    (h : supersede k replacement now db = .ok (changed, db')) :
    db' = db ∨
    (db.proposalForReview? k = none ∧
      db' = (db.updateItem k (fun r => r.state = .pending)
        (supersedeItem replacement (isoUtc now))).2) ∨
    ∃ p, db.proposalForReview? k = some p ∧ p.state = .pending ∧
      db' = ((db.updateProposal p.proposalId (fun p => p.state = .pending)
        (closeProposal .superseded "approval_superseded" (isoUtc now))).2.updateItem k
          (fun r => r.state = .pending) (supersedeItem replacement (isoUtc now))).2 := by
  simp only [supersede] at h
  split at h
  · next hnone =>
    simp only [bind_eq_ok, Except.ok.injEq, Prod.mk.injEq] at h
    obtain ⟨_, _, _, rfl⟩ := h
    exact .inr (.inl ⟨hnone, rfl⟩)
  · next p hp =>
    split at h
    · next hpending =>
      simp only [bind_eq_ok, Except.ok.injEq, Prod.mk.injEq] at h
      obtain ⟨_, _, _, rfl⟩ := h
      exact .inr (.inr ⟨p, hp, hpending, rfl⟩)
    · simp only [Except.ok.injEq, Prod.mk.injEq] at h
      exact .inl h.2.symm

theorem enqueueExecution_spec [PythonText] {kind : ReviewDecisionKind} {job : Option DurableJob}
    (h : db.enqueueExecution kind p fresh = .ok (job, db')) :
    db'.proposals = db.proposals ∧ db'.items = db.items := by
  cases kind with
  | approve =>
    simp only [ReviewDb.enqueueExecution, bind_eq_ok, Except.ok.injEq, Prod.mk.injEq] at h
    obtain ⟨_, henqueue, _, rfl⟩ := h
    exact ⟨(enqueue_spec henqueue).1, (enqueue_spec henqueue).2.1⟩
  | reject =>
    simp only [ReviewDb.enqueueExecution, Except.ok.injEq, Prod.mk.injEq] at h
    obtain ⟨_, rfl⟩ := h
    exact ⟨rfl, rfl⟩

theorem enqueueOutcome_spec [PythonText] {outcome : ActionProposalState}
    (h : db.enqueueOutcome p outcome fresh = .ok db') :
    db'.proposals = db.proposals ∧ db'.items = db.items := by
  unfold ReviewDb.enqueueOutcome at h
  split at h
  · simp only [bind_eq_ok, Except.ok.injEq] at h
    obtain ⟨_, henqueue, rfl⟩ := h
    exact ⟨(enqueue_spec henqueue).1, (enqueue_spec henqueue).2.1⟩
  · obtain rfl := Except.ok.inj h
    exact ⟨rfl, rfl⟩

theorem checkDecision_spec {d : DecisionRequest} {u : Unit} (h : checkDecision d p db = .ok u) :
    p.state = .pending := by
  simp only [checkDecision, bind_eq_ok, require_eq_ok, decide_eq_true_eq] at h
  exact h.choose_spec.2.choose_spec.1

theorem decideActionProposal_spec [PythonText] {d : DecisionRequest} {decided : DecidedProposal}
    (h : decideActionProposal d fresh db = .ok (decided, db')) :
    db' = db ∨ ∃ p jobId, db.proposal? d.proposalId = some p ∧ p.reviewId = d.reviewId ∧
      p.state = .pending ∧
      db'.proposals = (db.proposals.updateKey d.proposalId (fun p => p.state = .pending)
        (recordDecision d fresh.decisionId jobId (isoUtc fresh.now)).toAssignment).2 ∧
      db'.items = (db.items.updateKey d.reviewId (fun r => r.state = .pending)
        (moveItem (decidedState d.decision) (isoUtc fresh.now))).2 := by
  simp only [decideActionProposal, bind_eq_ok, named_eq_ok, require_eq_ok, decide_eq_true_eq] at h
  obtain ⟨p, hp, _, hreview, h⟩ := h
  split at h
  · simp only [bind_eq_ok, Except.ok.injEq, Prod.mk.injEq] at h
    obtain ⟨_, _, _, rfl⟩ := h
    exact .inl rfl
  · simp only [bind_eq_ok, Except.ok.injEq, Prod.mk.injEq] at h
    obtain ⟨_, hchecked, written, hwritten, _, _, ⟨job, queued⟩, hjob, _, _, _, _, _, rfl⟩ := h
    obtain ⟨hproposals, hitems, -⟩ := insertDecision_spec hwritten
    obtain ⟨hqueued, hqueuedItems⟩ := enqueueExecution_spec hjob
    refine .inr ⟨p, job.map (·.jobId), hp, hreview, checkDecision_spec hchecked, ?_, ?_⟩
    · show (queued.proposals.updateKey _ _ _).2 = _
      rw [hqueued]
      show (written.proposals.updateKey _ _ _).2 = _
      rw [hproposals]
    · show queued.items = _
      rw [hqueuedItems, ← hitems]
      rfl

theorem recordExecuted_spec {receipt : Option Str} {observed : Str} :
    (db.recordExecuted p receipt observed).proposals = db.proposals ∧
      (db.recordExecuted p receipt observed).items =
        (db.items.updateKey p.reviewId (fun _ => true) (moveItem .executed observed)).2 := by
  unfold ReviewDb.recordExecuted
  cases p.decisionId with
  | none => exact ⟨rfl, rfl⟩
  | some decisionId => exact ⟨rfl, rfl⟩

theorem finishActionExecution_spec [PythonText] {outcome : ActionProposalState}
    {receipt : Option Str}
    (h : finishActionExecution proposalId jobId workerId token outcome reason receipt fresh db =
      .ok (row, db')) :
    (outcome = .executed ∨ outcome = .denied ∨ outcome = .failedTerminal) ∧
    (db' = db ∨ ∃ p, db.proposal? proposalId = some p ∧ p.state = .executing ∧
      p.executionJobId.getD [] = jobId ∧ p.executionFencingToken = some token ∧
      jobHeld (db.jobs.find? jobId) workerId token = true ∧
      db'.proposals = (db.proposals.updateKey proposalId
        (fun p => p.state = .executing && p.executionFencingToken = some token)
        (finishExecution outcome (normalizedReceipt receipt) reason
          (isoUtc fresh.now)).toAssignment).2 ∧
      db'.items = if outcome = .executed then (db.items.updateKey p.reviewId (fun _ => true)
        (moveItem .executed (isoUtc fresh.now))).2 else db.items) := by
  simp only [finishActionExecution, bind_eq_ok, named_eq_ok, require_eq_ok,
    decide_eq_true_eq] at h
  obtain ⟨_, houtcome, _, _, p, hp, h⟩ := h
  refine ⟨houtcome, ?_⟩
  split at h
  · simp only [bind_eq_ok, Except.ok.injEq, Prod.mk.injEq] at h
    obtain ⟨_, _, _, rfl⟩ := h
    exact .inl rfl
  · simp only [bind_eq_ok, require_eq_ok, Bool.and_eq_true, decide_eq_true_eq, Except.ok.injEq,
      Prod.mk.injEq] at h
    obtain ⟨_, ⟨⟨hstate, hjob⟩, _⟩, _, hheld, _, hchanged, noticed, hnoticed, _, _, _, rfl⟩ := h
    obtain ⟨hproposals, hitems⟩ := enqueueOutcome_spec hnoticed
    obtain ⟨q, hq, hg⟩ := updateProposal_fst.1 hchanged
    obtain rfl : p = q := Option.some.inj (hp.symm.trans hq)
    have htoken : p.executionFencingToken = some token := by
      simp only [Bool.and_eq_true, decide_eq_true_eq] at hg
      exact hg.2
    refine .inr ⟨p, hp, hstate, hjob, htoken, jobHeld_of_filter hheld, ?_, ?_⟩
    · rw [hproposals]
      split
      · rw [recordExecuted_spec.1]
        rfl
      · rfl
    · rw [hitems]
      split
      · rw [recordExecuted_spec.2]
        rfl
      · rfl

theorem insertRequest_spec [PythonText] {request : ActionApprovalProposalRequest}
    (h : db.insertRequest request fresh = .ok (row, db')) :
    row.proposalId = fresh.proposalId ∧ row.reviewId = fresh.reviewId ∧ row.state = .pending ∧
      row.destinationArgumentsJson.isSome = true ∧ row.terminalAt = none ∧
      row.toProposalBinding = request.toProposalBinding ∧
      (∀ old ∈ db.proposals.rows, old.reviewId ≠ row.reviewId) ∧
      db.proposal? row.proposalId = none ∧ db.item? row.reviewId = none ∧
      db'.proposals.rows = db.proposals.rows ++ [row] ∧
      (∀ k, db'.proposal? k = if row.proposalId = k then some row else db.proposal? k) ∧
      ∀ k, db'.item? k = if row.reviewId = k then
        some (request.item fresh.proposalId fresh.reviewId (isoUtc fresh.now))
        else db.item? k := by
  simp only [ReviewDb.insertRequest, bind_eq_ok, Except.ok.injEq, Prod.mk.injEq] at h
  obtain ⟨listed, hlisted, written, hwritten, inserted, hinserted, rfl, rfl⟩ := h
  obtain ⟨hnoItem, hlistedProposals, -, hitem⟩ := insertItem_spec hlisted
  obtain ⟨hnone, hapart, hitems, hrows, hproposal⟩ := insertProposal_spec hinserted
  simp only [ActionApprovalProposalRequest.row, bind_eq_ok, Except.ok.injEq] at hwritten
  obtain ⟨arguments, _, _, _, _, _, rfl⟩ := hwritten
  rw [hlistedProposals] at hrows hapart
  refine ⟨rfl, rfl, rfl, rfl, rfl, rfl, hapart, ?_, hnoItem, hrows, fun k => ?_, fun k => ?_⟩
  · rw [ReviewDb.proposal?, ← hlistedProposals]
    exact hnone
  · rw [hproposal, ReviewDb.proposal?, hlistedProposals]
    rfl
  · rw [ReviewDb.item?, hitems]
    exact hitem k

theorem createActionProposal_spec [PythonText] {request : ActionApprovalProposalRequest}
    {created : CreatedProposal}
    (h : createActionProposal request fresh db = .ok (created, db')) :
    ∃ row written, db.rowOfRequest request fresh = .ok (row, written) ∧
      db'.proposals = written.proposals ∧ db'.items = written.items := by
  simp only [createActionProposal, bind_eq_ok] at h
  obtain ⟨_, _, ⟨row, written⟩, hrow, h⟩ := h
  refine ⟨row, written, hrow, ?_⟩
  split at h
  · simp at h
  · obtain ⟨_, _, h⟩ := bind_eq_ok.1 h
    split at h
    · simp only [bind_eq_ok, Except.ok.injEq, Prod.mk.injEq] at h
      obtain ⟨⟨_, _⟩, henqueue, _, rfl⟩ := h
      exact ⟨(enqueue_spec henqueue).1, (enqueue_spec henqueue).2.1⟩
    · simp only [Except.ok.injEq, Prod.mk.injEq] at h
      obtain ⟨_, rfl⟩ := h
      exact ⟨rfl, rfl⟩

end Specs

end HardyAI.Reviews
