import HardyAI.Reviews.ProposalCases

/-! The life cycle of an action proposal. Every call carries each proposal and
its review item through one of the ways of `ProposalCase`, so every reachable
database keeps them in agreement, and a terminal state is final. -/

open Foundation Foundation.Json Foundation.Trace HardyAI.Jobs

namespace HardyAI.Reviews

section Evolution

variable {c : Call} {db db' : ReviewDb}

structure Evolves (c : Call) (db db' : ReviewDb) : Prop where
  carried : ∀ p ∈ db.proposals.rows, ∀ item, db.item? p.reviewId = some item → PairValid p item →
    ∃ p' item', db'.proposal? p.proposalId = some p' ∧ db'.item? p.reviewId = some item' ∧
      ProposalCase c db p item p' item'
  ids : db'.proposals.rows.map (fun p => (p.proposalId, p.reviewId)) =
    db.proposals.rows.map (fun p => (p.proposalId, p.reviewId))

theorem Moves.evolves {gp : ActionProposal → Bool} {fp : ProposalAssignment}
    {gi : ReviewItem → Bool} {fi : Table.Assignment ReviewItem.reviewId}
    (h : Moves db db' gp fp gi fi)
    (hcase : ∀ p ∈ db.proposals.rows, ∀ item, db.item? p.reviewId = some item → PairValid p item →
      ProposalCase c db p item (if gp p then fp.apply p else p)
        (if gi item then fi.apply item else item)) : Evolves c db db' where
  carried p hp item hitem hv :=
    ⟨_, _, h.proposal? (Table.find?_of_mem hp), h.item? hitem, hcase p hp item hitem hv⟩
  ids := h.ids

theorem evolves_of_eq (hproposals : db'.proposals = db.proposals) (hitems : db'.items = db.items) :
    Evolves c db db' :=
  (Moves.still hproposals hitems).evolves fun p _ _ _ _ => .kept (Kept.refl p)

theorem Evolves.refl (c : Call) (db : ReviewDb) : Evolves c db db := evolves_of_eq rfl rfl

/-- An update of one proposal that keeps the columns of its life cycle. -/
theorem evolves_of_kept {proposalId : Str} {g : ActionProposal → Bool} {f : ProposalAssignment}
    (hkept : ∀ p, Kept p (f.apply p)) : Evolves c db (db.updateProposal proposalId g f).2 := by
  refine (updateProposal_moves db proposalId).evolves fun p _ item _ _ => ?_
  split
  · exact .kept (hkept p)
  · exact .kept (Kept.refl p)

/-- An update of one proposal alone. -/
theorem evolves_of_proposal {proposalId : Str} {g : ActionProposal → Bool} {f : ProposalAssignment}
    (hproposals : db'.proposals = (db.proposals.updateKey proposalId g f.toAssignment).2)
    (hitems : db'.items = db.items)
    (hcase : ∀ p item, db.proposal? proposalId = some p → g p = true →
      ProposalCase c db p item (f.apply p) item) : Evolves c db db' := by
  have hmoves : Moves db db' (fun r => r.proposalId = proposalId && g r) f (fun _ => false)
      (moveItem .expired []) := ⟨hproposals, by rw [hitems, Table.update_eq_self fun _ _ => rfl]⟩
  refine hmoves.evolves fun p hp item _ _ => ?_
  split
  · next hmoved =>
    rw [Bool.and_eq_true, decide_eq_true_eq] at hmoved
    obtain ⟨rfl, hg⟩ := hmoved
    exact hcase p item (Table.find?_of_mem hp) hg
  · exact .kept (Kept.refl p)

/-- An update of the review item of no proposal. -/
theorem evolves_of_item {review : Str} {g : ReviewItem → Bool}
    {f : Table.Assignment ReviewItem.reviewId} (hnone : db.proposalForReview? review = none)
    (hproposals : db'.proposals = db.proposals)
    (hitems : db'.items = (db.items.updateKey review g f).2) : Evolves c db db' := by
  have hmoves : Moves db db' (fun _ => false) (setOutcome [] [] [] [])
      (fun r => r.reviewId = review && g r) f :=
    ⟨by rw [hproposals, Table.update_eq_self fun _ _ => rfl], hitems⟩
  refine hmoves.evolves fun p hp item hitem _ => ?_
  have hother : item.reviewId ≠ review := by
    rw [Table.key_of_find? hitem]
    exact proposalForReview?_eq_none hnone hp
  rw [if_neg (by simp), if_neg (by simp [hother])]
  exact .kept (Kept.refl p)

/-- An update of a proposal together with its own review item. -/
theorem evolves_of_pair {proposalId review : Str} {g : ActionProposal → Bool}
    {f : ProposalAssignment} {gi : ReviewItem → Bool} {fi : Table.Assignment ReviewItem.reviewId}
    {p : ActionProposal} (hv : DbValid db) (hp : db.proposal? proposalId = some p)
    (hreview : p.reviewId = review)
    (hproposals : db'.proposals = (db.proposals.updateKey proposalId g f.toAssignment).2)
    (hitems : db'.items = (db.items.updateKey review gi fi).2)
    (hcase : ∀ item, db.item? p.reviewId = some item → PairValid p item →
      ProposalCase c db p item (if g p then f.apply p else p)
        (if gi item then fi.apply item else item)) : Evolves c db db' := by
  have hmoves : Moves db db' (fun r => r.proposalId = proposalId && g r) f
      (fun r => r.reviewId = review && gi r) fi := ⟨hproposals, hitems⟩
  refine hmoves.evolves fun q hq item hitem hpair => ?_
  have hitemId : item.reviewId = q.reviewId := Table.key_of_find? hitem
  by_cases hsame : q.proposalId = proposalId
  · have hfind := Table.find?_of_mem hq
    rw [hsame] at hfind
    obtain rfl : p = q := Option.some.inj (hp.symm.trans hfind)
    simpa [hsame, hitemId, hreview] using hcase item hitem hpair
  · have hother : q.reviewId ≠ review := by
      intro heq
      refine hsame ?_
      have hqp := List.inj_on_of_nodup_map hv.apart hq (Table.mem_of_find? hp)
        (heq.trans hreview.symm)
      rw [hqp, Table.key_of_find? hp]
    rw [if_neg (by simp [hsame]), if_neg (by simp [hitemId, hother])]
    exact .kept (Kept.refl q)

theorem evolves_commit {α : Type} {t : Transaction ReviewDb α}
    (h : ∀ a db', t db = .ok (a, db') → Evolves c db db') : Evolves c db (t.commit db) := by
  cases ht : t db with
  | error e =>
    rw [Transaction.commit_of_error ht]
    exact Evolves.refl c db
  | ok reply =>
    obtain ⟨a, db'⟩ := reply
    rw [Transaction.commit_of_ok ht]
    exact h a db' ht

end Evolution

section Step

variable [PythonText] {db : ReviewDb}

omit [PythonText] in
theorem expireDue_evolves (observed : Str) :
    Evolves (.expireDue observed) db ((expireDue observed).commit db) := by
  refine (expireDue_moves observed).evolves fun p _ item _ hpair => ?_
  have hdue : (item.state = .pending && item.expiresAt.any (· ≤ observed)) =
      dueIn .pending observed p := by
    simp [dueIn, hpair.expires, hpair.pending]
  rw [hdue]
  by_cases hpending : dueIn .pending observed p = true
  · have hstate : p.state = .pending := by
      simp only [dueIn, Bool.and_eq_true, decide_eq_true_eq] at hpending
      exact hpending.1
    simpa [hpending] using ProposalCase.expired observed rfl hstate
  · by_cases happroved : dueIn .approved observed p = true
    · have hstate : p.state = .approved := by
        simp only [dueIn, Bool.and_eq_true, decide_eq_true_eq] at happroved
        exact happroved.1
      simpa [hpending, happroved] using ProposalCase.lapsed observed rfl hstate
    · simpa [hpending, happroved] using ProposalCase.kept (Kept.refl p)

theorem step_evolves (hv : DbValid db) (c : Call)
    (hcreate : ∀ request fresh, c ≠ .createActionProposal request fresh) :
    Evolves c db (step db c) := by
  cases c with
  | job c => exact evolves_of_eq rfl rfl
  | expireDue observed => exact expireDue_evolves observed
  | createActionProposal request fresh => exact absurd rfl (hcreate request fresh)
  | markActionNotificationDelivered proposalId purpose guild channel message now =>
    refine evolves_commit fun row db' h => ?_
    obtain rfl | ⟨g, rfl⟩ := markActionNotificationDelivered_spec h
    · exact Evolves.refl _ _
    · exact evolves_of_kept fun p => ⟨rfl, rfl, rfl, rfl, rfl, rfl, rfl⟩
  | decideActionProposal d fresh =>
    refine evolves_commit fun decided db' h => ?_
    obtain rfl | ⟨p, jobId, hp, hreview, hstate, hproposals, hitems⟩ :=
      decideActionProposal_spec h
    · exact Evolves.refl _ _
    · refine evolves_of_pair hv hp hreview hproposals hitems fun item _ hpair => ?_
      simpa [hstate, hpair.pending.1 hstate] using
        ProposalCase.decided d fresh rfl hstate jobId
  | beginActionExecution proposalId jobId workerId token observed =>
    refine evolves_commit fun row db' h => ?_
    obtain ⟨rfl, -, -⟩ | ⟨p, hp, hstate, hheld, hjob, -, rfl⟩ := beginActionExecution_spec h
    · exact Evolves.refl _ _
    · refine evolves_of_proposal rfl rfl fun q item hq _ => ?_
      obtain rfl : p = q := Option.some.inj (hp.symm.trans hq)
      obtain rfl := Table.key_of_find? hp
      exact .began jobId workerId token observed rfl hstate hheld hjob
  | finishActionExecution proposalId jobId workerId token outcome reason receipt fresh =>
    refine evolves_commit fun row db' h => ?_
    obtain ⟨houtcome, rfl | ⟨p, hp, hstate, -, htoken, -, hproposals, hitems⟩⟩ :=
      finishActionExecution_spec h
    · exact Evolves.refl _ _
    · obtain rfl := Table.key_of_find? hp
      split at hitems
      · next hexecuted =>
        refine evolves_of_pair hv hp rfl hproposals hitems fun item _ _ => ?_
        have hcase : ProposalCase _ db p item _ _ :=
          .finished jobId workerId token outcome reason receipt fresh rfl houtcome hstate
        simpa [hstate, htoken, hexecuted] using hcase
      · next hother =>
        refine evolves_of_proposal hproposals hitems fun q item hq _ => ?_
        obtain rfl : p = q := Option.some.inj (hp.symm.trans hq)
        have hcase : ProposalCase _ db p item _ _ :=
          .finished jobId workerId token outcome reason receipt fresh rfl houtcome hstate
        simpa [hother] using hcase
  | markActionOutcomeDelivered proposalId purpose guild channel message now =>
    refine evolves_commit fun row db' h => ?_
    obtain rfl | ⟨g, rfl⟩ := markActionOutcomeDelivered_spec h
    · exact Evolves.refl _ _
    · exact evolves_of_kept fun p => ⟨rfl, rfl, rfl, rfl, rfl, rfl, rfl⟩
  | retryActionExecutionAfterNoEffect proposalId jobId workerId token reconciliation now =>
    refine evolves_commit fun row db' h => ?_
    obtain ⟨p, hp, hstate, hjob, htoken, -, rfl⟩ := retryActionExecutionAfterNoEffect_spec h
    refine evolves_of_proposal rfl rfl fun q item hq _ => ?_
    obtain rfl : p = q := Option.some.inj (hp.symm.trans hq)
    obtain rfl := Table.key_of_find? hp
    exact .reopened jobId workerId token reconciliation now rfl hstate hjob htoken
  | cancelApprovedAction proposalId reason now =>
    refine evolves_commit fun row db' h => ?_
    obtain rfl | ⟨p, jobs, hp, hstate, rfl⟩ := cancelApprovedAction_spec h
    · exact Evolves.refl _ _
    · refine evolves_of_proposal rfl rfl fun q item hq _ => ?_
      obtain rfl : p = q := Option.some.inj (hp.symm.trans hq)
      obtain rfl := Table.key_of_find? hp
      exact .canceled reason now rfl hstate
  | create request fresh =>
    refine evolves_commit fun item db' h => ?_
    obtain ⟨hproposals, hitems⟩ := create_spec h
    refine ⟨fun p hp item hitem _ => ⟨p, item, ?_, hitems _ _ hitem, .kept (Kept.refl p)⟩, ?_⟩
    · rw [ReviewDb.proposal?, hproposals]
      exact Table.find?_of_mem hp
    · rw [hproposals]
  | decide reviewId itemHash decision actor reason key edited fresh =>
    refine evolves_commit fun recorded db' h => ?_
    obtain ⟨hnone, hproposals, hitems | ⟨g, f, hitems⟩⟩ := decide_spec h
    · exact evolves_of_eq hproposals hitems
    · exact evolves_of_item hnone hproposals hitems
  | supersede reviewId replacement now =>
    refine evolves_commit fun changed db' h => ?_
    obtain rfl | ⟨hnone, rfl⟩ | ⟨p, hp, hstate, rfl⟩ := supersede_spec h
    · exact Evolves.refl _ _
    · exact evolves_of_item hnone rfl rfl
    · obtain ⟨hmem, rfl⟩ := proposalForReview?_eq_some hp
      refine evolves_of_pair hv (Table.find?_of_mem hmem) rfl rfl rfl fun item _ hpair => ?_
      simpa [hstate, hpair.pending.1 hstate] using
        ProposalCase.superseded replacement now rfl hstate
  | markApplied decisionId receipt now =>
    refine evolves_commit fun applied db' h => ?_
    obtain rfl | ⟨review, hnone, hproposals, g, f, hitems⟩ := markApplied_spec h
    · exact Evolves.refl _ _
    · exact evolves_of_item hnone hproposals hitems

/-- A first request adds its proposal with a review item of its own. -/
structure Adds (db db' : ReviewDb) (row : ActionProposal) (item : ReviewItem) : Prop where
  pair : PairValid row item
  apart : ∀ old ∈ db.proposals.rows, old.reviewId ≠ row.reviewId
  fresh : db.proposal? row.proposalId = none
  rows : db'.proposals.rows = db.proposals.rows ++ [row]
  proposal (k : Str) : db'.proposal? k = if row.proposalId = k then some row else db.proposal? k
  item (k : Str) : db'.item? k = if row.reviewId = k then some item else db.item? k

theorem createActionProposal_evolves (request : ActionApprovalProposalRequest) (fresh : Fresh) :
    Evolves (.createActionProposal request fresh) db
        ((createActionProposal request fresh).commit db) ∨
      ∃ row, row.proposalId = fresh.proposalId ∧
        Adds db ((createActionProposal request fresh).commit db) row
        (request.item fresh.proposalId fresh.reviewId (isoUtc fresh.now)) := by
  cases h : createActionProposal request fresh db with
  | error e =>
    rw [Transaction.commit_of_error h]
    exact .inl (Evolves.refl _ _)
  | ok reply =>
    obtain ⟨created, db'⟩ := reply
    rw [Transaction.commit_of_ok h]
    obtain ⟨row, written, hrow, hproposals, hitems⟩ := createActionProposal_spec h
    unfold ReviewDb.rowOfRequest at hrow
    split at hrow
    · obtain ⟨hid, hreview, hstate, harguments, hterminal, hbinding, hapart, hnone, -, hrows,
        hproposal, hitem⟩ := insertRequest_spec hrow
      refine .inr ⟨row, hid, ⟨?_, ?_, ?_, ?_⟩, hapart, hnone, ?_, fun k => ?_, fun k => ?_⟩
      · simp [harguments, hstate, ActionProposalState.live]
      · simp [hterminal, hstate, ActionProposalState.live]
      · rw [hbinding]
        rfl
      · simp [hstate, ActionApprovalProposalRequest.item]
      · rw [hproposals, hrows]
      · rw [ReviewDb.proposal?, hproposals]
        exact hproposal k
      · rw [ReviewDb.item?, hitems]
        exact hitem k
    · simp only [bind_eq_ok, Except.ok.injEq, Prod.mk.injEq] at hrow
      obtain ⟨_, _, _, rfl⟩ := hrow
      exact .inl (evolves_of_eq hproposals hitems)

/-- What one call does to a proposal that is already there. -/
theorem proposal_step (hv : DbValid db) (c : Call) {p : ActionProposal} {item : ReviewItem}
    (hp : p ∈ db.proposals.rows) (hitem : db.item? p.reviewId = some item) :
    ∃ p' item', (step db c).proposal? p.proposalId = some p' ∧
      (step db c).item? p.reviewId = some item' ∧ ProposalCase c db p item p' item' := by
  have hpair : PairValid p item := by
    obtain ⟨item', hitem', hpair⟩ := hv.paired p hp
    obtain rfl : item = item' := Option.some.inj (hitem.symm.trans hitem')
    exact hpair
  by_cases hcreate : ∀ request fresh, c ≠ .createActionProposal request fresh
  · exact (step_evolves hv c hcreate).carried p hp item hitem hpair
  · push Not at hcreate
    obtain ⟨request, fresh, rfl⟩ := hcreate
    obtain h | ⟨row, -, h⟩ := @createActionProposal_evolves _ db request fresh
    · exact h.carried p hp item hitem hpair
    · refine ⟨p, item, ?_, ?_, .kept (Kept.refl p)⟩
      · rw [step, h.proposal, if_neg]
        · exact Table.find?_of_mem hp
        · intro heq
          have hfresh := h.fresh
          rw [heq, ReviewDb.proposal?, Table.find?_of_mem hp] at hfresh
          simp at hfresh
      · rw [step, h.item, if_neg fun heq => h.apart p hp heq.symm, hitem]

omit [PythonText] in
theorem Evolves.valid {c : Call} {db' : ReviewDb} (h : Evolves c db db') (hv : DbValid db) :
    DbValid db' where
  paired p' hp' := by
    have hids : (p'.proposalId, p'.reviewId) ∈
        db'.proposals.rows.map fun p => (p.proposalId, p.reviewId) := List.mem_map_of_mem hp'
    rw [h.ids] at hids
    obtain ⟨p, hp, hid⟩ := List.mem_map.1 hids
    obtain ⟨hid, hreview⟩ := Prod.mk.injEq .. ▸ hid
    obtain ⟨item, hitem, hpair⟩ := hv.paired p hp
    obtain ⟨q, item', hq, hitem', hcase⟩ := h.carried p hp item hitem hpair
    obtain rfl : q = p' := by
      rw [hid, ReviewDb.proposal?, Table.find?_of_mem hp'] at hq
      exact (Option.some.inj hq).symm
    exact ⟨item', hreview ▸ hitem', (hcase.valid hpair).2⟩
  apart := by
    have hreviews := congrArg (List.map Prod.snd) h.ids
    simp only [List.map_map, Function.comp_def] at hreviews
    show (db'.proposals.rows.map fun p => p.reviewId).Nodup
    rw [hreviews]
    exact hv.apart

omit [PythonText] in
theorem Adds.valid {db' : ReviewDb} {row : ActionProposal} {item : ReviewItem}
    (h : Adds db db' row item) (hv : DbValid db) : DbValid db' where
  paired p hp := by
    rw [h.rows, List.mem_append, List.mem_singleton] at hp
    obtain hp | rfl := hp
    · obtain ⟨old, hold, hpair⟩ := hv.paired p hp
      exact ⟨old, by rw [h.item, if_neg fun heq => h.apart p hp heq.symm, hold], hpair⟩
    · exact ⟨item, by rw [h.item, if_pos rfl], h.pair⟩
  apart := by
    rw [h.rows, List.map_append, List.map_singleton, List.nodup_append_comm]
    refine List.nodup_cons.2 ⟨fun hmem => ?_, hv.apart⟩
    obtain ⟨old, hold, heq⟩ := List.mem_map.1 hmem
    exact h.apart old hold heq

theorem step_valid (hv : DbValid db) (c : Call) : DbValid (step db c) := by
  by_cases hcreate : ∀ request fresh, c ≠ .createActionProposal request fresh
  · exact (step_evolves hv c hcreate).valid hv
  · push Not at hcreate
    obtain ⟨request, fresh, rfl⟩ := hcreate
    obtain h | ⟨row, -, h⟩ := @createActionProposal_evolves _ db request fresh
    · exact h.valid hv
    · exact h.valid hv

omit [PythonText] in
theorem empty_valid : DbValid .empty :=
  ⟨fun _ hp => absurd hp List.not_mem_nil, List.nodup_nil⟩

theorem reachable_valid (cs : List Call) : DbValid (dbAfter cs) := by
  have hstep : ∀ db c, DbValid db → DbValid (step db c) := fun _ c hv => step_valid hv c
  exact run_invariant hstep empty_valid cs

end Step

section Terminal

variable [PythonText]

omit [PythonText] in
/-- A proposal in a terminal state is only carried along. -/
theorem ProposalCase.kept_of_terminal {c : Call} {db : ReviewDb} {p p' : ActionProposal}
    {item item' : ReviewItem} (h : ProposalCase c db p item p' item')
    (hterminal : p.state.live = false) : Kept p p' ∧ item' = item := by
  cases h with
  | kept h => exact ⟨h, rfl⟩
  | _ => simp_all [ActionProposalState.live]

theorem step_terminal {db : ReviewDb} (hv : DbValid db) (c : Call) {p : ActionProposal}
    (hp : p ∈ db.proposals.rows) (hterminal : p.state.live = false) :
    ∃ p' ∈ (step db c).proposals.rows, p'.proposalId = p.proposalId ∧ p'.state = p.state := by
  obtain ⟨item, hitem, -⟩ := hv.paired p hp
  obtain ⟨p', item', hp', -, hcase⟩ := proposal_step hv c hp hitem
  exact ⟨p', Table.mem_of_find? hp', Table.key_of_find? hp',
    (hcase.kept_of_terminal hterminal).1.state⟩

/-- From a valid database on, a terminal state stays through every later call. -/
theorem run_terminal {db : ReviewDb} (hv : DbValid db) (cs : List Call) {p : ActionProposal}
    (hp : p ∈ db.proposals.rows) (hterminal : p.state.live = false) :
    ∃ p' ∈ (run step db cs).proposals.rows, p'.proposalId = p.proposalId ∧
      p'.state = p.state := by
  induction cs generalizing db p with
  | nil => exact ⟨p, hp, rfl, rfl⟩
  | cons c cs ih =>
    obtain ⟨q, hq, hid, hstate⟩ := step_terminal hv c hp hterminal
    obtain ⟨p', hp', hid', hstate'⟩ := ih (step_valid hv c) hq (hstate ▸ hterminal)
    exact ⟨p', hp', hid'.trans hid, hstate'.trans hstate⟩

omit [PythonText] in
theorem live_iff {state : ActionProposalState} :
    state.live = true ↔ state = .pending ∨ state = .approved ∨ state = .executing := by
  cases state <;> simp [ActionProposalState.live]

/-- After any calls, every proposal holds its arguments exactly while it is pending, approved or
executing, has a terminal time exactly in the other states, is pending exactly when its review
item is, and in a terminal state stays there whatever calls follow. -/
theorem proposal_lifecycle (cs : List Call) (p : ActionProposal)
    (hp : p ∈ (dbAfter cs).proposals.rows) :
    (p.destinationArgumentsJson.isSome = true ↔
      p.state = .pending ∨ p.state = .approved ∨ p.state = .executing) ∧
    (p.terminalAt.isSome = true ↔
      ¬ (p.state = .pending ∨ p.state = .approved ∨ p.state = .executing)) ∧
    (∃ item, (dbAfter cs).item? p.reviewId = some item ∧
      (p.state = .pending ↔ item.state = .pending)) ∧
    (¬ (p.state = .pending ∨ p.state = .approved ∨ p.state = .executing) →
      ∀ more, ∃ p', (dbAfter (cs ++ more)).proposal? p.proposalId = some p' ∧
        p'.state = p.state) := by
  have hv := reachable_valid cs
  obtain ⟨item, hitem, hpair⟩ := hv.paired p hp
  simp only [← live_iff, Bool.not_eq_true]
  refine ⟨hpair.arguments, hpair.terminal, ⟨item, hitem, hpair.pending⟩, fun hterminal more => ?_⟩
  obtain ⟨p', hp', hid, hstate⟩ := run_terminal hv more hp hterminal
  refine ⟨p', ?_, hstate⟩
  rw [dbAfter, run_append, ← hid]
  exact Table.find?_of_mem hp'

end Terminal

section Sample

def sampleRequest : ActionApprovalProposalRequest where
  idempotencyKey := "action-proposal:v1:op1"
  proposalHash := "h1"
  rootRequestId := "root1"
  operationId := "op1"
  callOrdinal := 1
  sessionId := "s1"
  principalKind := "owner"
  principalSubject := "owner"
  externalUserId := "u1"
  requesterUserId := "u1"
  agentId := "agent"
  sourceInterface := "task"
  channelScope := "task_workspace"
  skillId := "calendar"
  toolId := "calendar.create"
  contractVersion := 1
  descriptorHash := "d1"
  resourceVersion := "1"
  authorizationBinding := "a1"
  argumentsHash := "x1"
  destinationArgumentsHash := "y1"
  effect := "external_write"
  effectCardinality := "single"
  sensitivity := "personal"
  persistence := "store"
  destinationPurpose := "task_workspace"
  approverPrincipal := "owner"
  safeActionSummary := "Execute calendar.create."
  riskSummary := "external_write at personal sensitivity."
  batchManifestHash := none
  transferBindingHash := none
  expiresAt := "2100-01-01T00:00:00+00:00"
  destinationArguments := [("title", .str "lunch")]
  batchManifest := none
  transferManifest := none

def sampleDecision (decision : ReviewDecisionKind) : DecisionRequest where
  proposalId := "p1"
  reviewId := "r1"
  boundProposalHash := "h1"
  decision := decision
  actorPrincipal := "owner"
  destinationPurpose := "task_workspace"
  guildId := []
  channelId := []
  messageId := []
  reason := "owner decision"
  idempotencyKey := "k1"

/-- A proposal that its owner rejects. -/
def rejectedRun : List Call :=
  [.createActionProposal sampleRequest
      { proposalId := "p1", reviewId := "r1", now := ⟨0, zero_lt_maxMicros⟩ },
    .decideActionProposal (sampleDecision .reject)
      { decisionId := "d1", now := ⟨1000000, second_lt_maxMicros⟩ }]

theorem proposal_lifecycle_rejectedRun :
    ∃ p ∈ (@dbAfter asciiText rejectedRun).proposals.rows, p.state = .rejected ∧
      p.destinationArgumentsJson = none ∧ ∀ more, ∃ p',
        (@dbAfter asciiText (rejectedRun ++ more)).proposal? p.proposalId = some p' ∧
        p'.state = .rejected := by
  have hrow : ∃ p ∈ (@dbAfter asciiText rejectedRun).proposals.rows, p.state = .rejected := by
    decide +kernel
  obtain ⟨p, hp, hstate⟩ := hrow
  obtain ⟨harguments, -, -, hfinal⟩ := @proposal_lifecycle asciiText rejectedRun p hp
  rw [hstate] at harguments hfinal
  exact ⟨p, hp, hstate, by simpa using harguments, hfinal (by simp)⟩

end Sample

end HardyAI.Reviews
