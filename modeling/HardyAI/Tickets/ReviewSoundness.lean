import HardyAI.Tickets.ReviewService

/-! What a completed review has read and what it has done, and when the evidence of the verifiers
bears it out. -/

open Foundation Foundation.Json HardyAI.Jobs Foundation.Program

namespace HardyAI.Tickets

section Trail

/-- The expectations of the ticket, as they were listed. -/
def listed (h : History Op.Reply) : List Expectation :=
  h.flatMap fun
    | ⟨.listExpectations _, expectations⟩ => expectations
    | _ => []

/-- The verdict of a registered verifier that could observe. -/
def observedVerdict : Option (Except PyError SourceObservation) → Option ReviewVerdict
  | some (.ok o) => some o.deterministicVerdict
  | some (.error _) | none => none

/-- The expectations that were observed, each with the verdict of its verifier. -/
def observed (h : History Op.Reply) : List (Expectation × Option ReviewVerdict) :=
  h.filterMap fun
    | ⟨.observe e _, reply⟩ => some (e, observedVerdict reply)
    | _ => none

def laterSeen (h : History Op.Reply) : List Ticket :=
  h.flatMap fun
    | ⟨.findLaterTickets .., later⟩ => later
    | _ => []

/-- The answers of the model. -/
def answers (h : History Op.Reply) : List ReviewDecision :=
  h.filterMap fun
    | ⟨.review _, .ok decision⟩ => some decision
    | _ => none

/-- The tickets that were read, the reviewed one first. -/
def ticketsRead (h : History Op.Reply) : List Ticket :=
  h.filterMap fun
    | ⟨.getTicket _, ticket⟩ => ticket
    | _ => none

/-- The tickets that were moved to verified. -/
def verifiedIds (h : History Op.Reply) : List Str :=
  h.filterMap fun
    | ⟨.transitionTicket a, _⟩ => if a.status = .verified then some a.ticketId else none
    | _ => none

/-- The requests of the remediations that were dispatched. -/
def remediations (h : History Op.Reply) : List Str :=
  h.filterMap fun
    | ⟨.getTicketByRequestId requestId, _⟩ => some requestId
    | _ => none

/-- A request that neither reads what a decision rests on nor carries one out, and takes no job
and no ticket back. -/
def Op.quiet : Op → Bool
  | .transitionTicket a => a.status ∉ [.verified, .captured, .waitingClarification]
  | .getTicketByRequestId _ | .listExpectations _ | .findLaterTickets .. | .observe ..
  | .review _ | .scheduleVerification _ | .claimJobs .. | .completeJob .. | .retryJob .. => false
  | _ => true

/-- Nothing that a decision rests on was read. -/
structure Blind (h : History Op.Reply) : Prop where
  listed : listed h = []
  observed : observed h = []
  laterSeen : laterSeen h = []
  answers : answers h = []

/-- Nothing was read that a decision rests on, and none was carried out. -/
structure Idle (h : History Op.Reply) : Prop extends Blind h where
  verifiedIds : verifiedIds h = []
  remediations : remediations h = []

theorem idle_of_quiet {h : History Op.Reply} (hquiet : ∀ e ∈ h, e.1.quiet = true) : Idle h := by
  induction h with
  | nil => exact ⟨⟨rfl, rfl, rfl, rfl⟩, rfl, rfl⟩
  | cons e h ih =>
    have hrest := ih fun e' he' => hquiet e' (List.mem_cons_of_mem _ he')
    have hfirst := hquiet e List.mem_cons_self
    obtain ⟨op, reply⟩ := e
    cases op with
    | transitionTicket a =>
      have hstatus : a.status ≠ .verified := by
        simp only [Op.quiet, List.mem_cons, not_or, decide_eq_true_eq] at hfirst
        exact hfirst.1
      exact ⟨⟨hrest.listed, hrest.observed, hrest.laterSeen, hrest.answers⟩,
        by simpa [verifiedIds, hstatus] using hrest.verifiedIds, hrest.remediations⟩
    | getTicketByRequestId | listExpectations | findLaterTickets | observe | review
    | scheduleVerification | claimJobs | completeJob | retryJob => cases hfirst
    | _ =>
      exact ⟨⟨hrest.listed, hrest.observed, hrest.laterSeen, hrest.answers⟩, hrest.verifiedIds,
        hrest.remediations⟩

def Quiet (_ : History Op.Reply) (op : Op) : Prop := op.quiet = true

theorem Idle.of_safe {α : Type} {p : Process α} {h : History Op.Reply} {x : Except PyError α}
    (hsafe : Safe Quiet [] p) (hrun : Runs p h x) : Idle h := by
  refine idle_of_quiet fun e he => ?_
  obtain ⟨a, b, rfl⟩ := List.append_of_mem he
  exact hsafe.allowed hrun a e.1 e.2 b rfl

variable {h h' : History Op.Reply}

theorem listed_append : listed (h ++ h') = listed h ++ listed h' := List.flatMap_append

theorem observed_append : observed (h ++ h') = observed h ++ observed h' := List.filterMap_append

theorem laterSeen_append : laterSeen (h ++ h') = laterSeen h ++ laterSeen h' :=
  List.flatMap_append

theorem answers_append : answers (h ++ h') = answers h ++ answers h' := List.filterMap_append

theorem verifiedIds_append : verifiedIds (h ++ h') = verifiedIds h ++ verifiedIds h' :=
  List.filterMap_append

theorem remediations_append : remediations (h ++ h') = remediations h ++ remediations h' :=
  List.filterMap_append

theorem Blind.append (hfirst : Blind h) (hsecond : Blind h') : Blind (h ++ h') where
  listed := by rw [listed_append, hfirst.listed, hsecond.listed]; rfl
  observed := by rw [observed_append, hfirst.observed, hsecond.observed]; rfl
  laterSeen := by rw [laterSeen_append, hfirst.laterSeen, hsecond.laterSeen]; rfl
  answers := by rw [answers_append, hfirst.answers, hsecond.answers]; rfl

end Trail

section Quiet

variable {h : History Op.Reply} (cfg : ReviewConfig)

theorem safe_quiet {op : Op} (hop : op.quiet = true) : Safe Quiet h (ask op) := safe_perform hop

theorem enqueuePlane_quiet (ticketId : Str) : Safe Quiet h (enqueuePlane cfg ticketId) := by
  refine Safe.ite safe_pure ((safe_quiet rfl).bind fun h₁ found _ => ?_)
  cases found with
  | none => exact safe_pure
  | some ticket =>
    exact (safe_quiet rfl).bind fun _ _ _ => (safe_quiet rfl).raising.bind fun _ _ _ => safe_pure

theorem transitionProcess_quiet {a : TransitionArgs}
    (ha : a.status ∉ [.verified, .captured, .waitingClarification]) :
    Safe Quiet h (transitionProcess a) :=
  (safe_quiet (by simpa [Op.quiet] using ha)).raising

theorem appendEntryProcess_quiet (ticketId requestId : Str) (entryType : TicketEntryType)
    (actorType : Str) (actorId verbatimText : Option Str) (payload : Json) (dedupeKey : Str) :
    Safe Quiet h (appendEntryProcess ticketId requestId entryType actorType actorId verbatimText
      payload dedupeKey) :=
  (safe_quiet rfl).bind fun _ _ _ => (safe_quiet rfl).raising.bind fun _ _ _ => safe_pure

theorem failClosed_quiet (childId reason completedAt : Str) :
    Safe Quiet h (failClosed cfg childId reason completedAt) :=
  (transitionProcess_quiet (by simp)).bind fun _ _ _ =>
    (enqueuePlane_quiet cfg childId).bind fun _ _ _ => safe_quiet rfl

variable [PythonText]

theorem reduceProcess_quiet (ticketId : Str) : Safe Quiet h (reduceProcess ticketId) := by
  refine (safe_quiet rfl).bind fun h₁ manifests _ => Safe.ite safe_pure ?_
  exact (safe_quiet rfl).bind fun _ _ _ => (safe_quiet rfl).bind fun _ _ _ => safe_ofExcept

theorem sinkTerminalChild_quiet (parentOperationId manifestHash childOperationId state : Str)
    (receipt : Option Fields) (reasonCode : Option Str) :
    Safe Quiet h (sinkTerminalChild parentOperationId manifestHash childOperationId state receipt
      reasonCode) :=
  (safe_quiet rfl).bind fun _ _ _ => (safe_quiet rfl).bind fun _ _ _ =>
    (safe_quiet rfl).bind fun _ _ _ => (safe_quiet rfl).bind fun _ _ _ =>
      safe_ofExcept.bind fun _ _ _ => (safe_quiet rfl).bind fun _ _ _ =>
        safe_ofExcept.bind fun _ _ _ => (safe_quiet rfl).raising.bind fun _ _ _ =>
          (reduceProcess_quiet _).bind fun _ _ _ => safe_pure

theorem settleRemediation_quiet (parent child : Ticket)
    (requestId parentOperationId childOperationId manifestHash completedAt : Str)
    (execution : Except PyError Json) :
    Safe Quiet h (settleRemediation cfg parent child requestId parentOperationId childOperationId
      manifestHash completedAt execution) := by
  unfold settleRemediation
  cases execution with
  | error e => exact failClosed_quiet ..
  | ok value =>
    cases value with
    | obj fields =>
      refine safe_ofExcept.bind fun _ authorization _ => Safe.ite ?_ ?_
      · exact (sinkTerminalChild_quiet ..).bind fun _ _ _ => failClosed_quiet ..
      · refine safe_ofExcept.bind fun _ approval _ => Safe.ite (failClosed_quiet ..) ?_
        split
        · refine Safe.ite (failClosed_quiet ..) ?_
          exact (appendEntryProcess_quiet ..).bind fun _ _ _ =>
            (sinkTerminalChild_quiet ..).bind fun _ _ _ =>
              (enqueuePlane_quiet ..).bind fun _ _ _ => (enqueuePlane_quiet ..).bind fun _ _ _ =>
                (safe_quiet rfl).bind fun _ _ _ => safe_pure
        · exact failClosed_quiet ..
    | _ => exact failClosed_quiet ..

omit [PythonText] in
theorem childTicket_quiet (parent : Ticket) (repair : ReviewRepair) (requestId : Str)
    (existing : Option Ticket) : Safe Quiet h (childTicket parent repair requestId existing) := by
  cases existing with
  | some child => exact safe_pure
  | none =>
    refine (safe_quiet rfl).bind fun _ _ _ => (safe_quiet rfl).raising.bind fun _ created _ => ?_
    cases created with
    | some child => exact safe_pure
    | none => exact safe_raise

theorem runRemediation_quiet (parent : Ticket) (repair : ReviewRepair)
    (requestId completedAt : Str) (child : Ticket) :
    Safe Quiet h (runRemediation cfg parent repair requestId completedAt child) := by
  unfold runRemediation
  refine Safe.bind safe_ofExcept fun _ binding _ => ?_
  refine Safe.bind (appendEntryProcess_quiet ..) fun _ _ _ => ?_
  refine Safe.bind (transitionProcess_quiet (by simp)) fun _ _ _ => ?_
  refine Safe.bind (transitionProcess_quiet (by simp)) fun _ _ _ => ?_
  refine Safe.bind (appendEntryProcess_quiet ..) fun _ _ _ => ?_
  refine Safe.bind safe_ofExcept fun _ hashes _ => ?_
  generalize normalizeExecutionManifest _ = normalized
  refine Safe.bind safe_ofExcept fun _ manifest _ => ?_
  generalize contentHash _ = hashed
  refine Safe.bind safe_ofExcept fun _ manifestHash _ => ?_
  refine Safe.bind (safe_quiet rfl) fun _ entryId _ => ?_
  refine Safe.bind (safe_quiet rfl).raising fun _ _ _ => Safe.ite (failClosed_quiet ..) ?_
  exact Safe.bind (safe_quiet rfl) fun _ execution _ => settleRemediation_quiet ..

theorem recordReview_quiet (ticketId reviewRunId contextHash : Str)
    (observations : List SourceObservation) (decision : ReviewDecision) :
    Safe Quiet h (recordReview cfg ticketId reviewRunId contextHash observations decision) :=
  safe_ofExcept.bind fun _ _ _ => (safe_quiet rfl).raising.bind fun _ _ _ =>
    (appendEntryProcess_quiet ..).bind fun _ _ _ => appendEntryProcess_quiet ..

end Quiet

section Observations

variable {h : History Op.Reply}

/-- Nothing but observations were made. -/
structure Observing (h : History Op.Reply) : Prop where
  listed : listed h = []
  laterSeen : laterSeen h = []
  answers : answers h = []
  verifiedIds : verifiedIds h = []
  remediations : remediations h = []

theorem observeExpectation_runs {receipts : List ReceiptRow} {e : Expectation}
    {o : SourceObservation} (hrun : Runs (observeExpectation receipts e) h (.ok o)) :
    Observing h ∧ ∃ v, observed h = [(e, v)] ∧ o.deterministicVerdict = v.getD .inconclusive := by
  unfold observeExpectation at hrun
  obtain ⟨reply, h₁, h₂, rfl, hasked, hrest⟩ := runs_bind_ok.1 hrun
  obtain ⟨reply, rfl, hreply⟩ := runs_perform.1 hasked
  cases hreply
  cases reply with
  | none =>
    obtain ⟨evidenceId, h₃, h₄, rfl, hid, hpure⟩ := runs_bind_ok.1 hrest
    obtain ⟨evidenceId, rfl, hid⟩ := runs_perform.1 hid
    obtain ⟨rfl, ho⟩ := hpure
    cases ho
    exact ⟨⟨rfl, rfl, rfl, rfl, rfl⟩, none, rfl, rfl⟩
  | some observation =>
    obtain ⟨rfl, ho⟩ := runs_ofExcept.1 hrest
    cases ho
    exact ⟨⟨rfl, rfl, rfl, rfl, rfl⟩, some o.deterministicVerdict, rfl, rfl⟩

/-- Every expectation is observed once, in order. -/
theorem observeAll_runs {receipts : List ReceiptRow} {es : List Expectation}
    {os : List SourceObservation} (hrun : Runs (observeAll receipts es) h (.ok os)) :
    Observing h ∧ (observed h).map Prod.fst = es ∧
      verdicts os = (observed h).map fun p => p.2.getD .inconclusive := by
  induction es generalizing h os with
  | nil =>
    obtain ⟨rfl, ho⟩ := hrun
    cases ho
    exact ⟨⟨rfl, rfl, rfl, rfl, rfl⟩, rfl, rfl⟩
  | cons e es ih =>
    obtain ⟨o, h₁, h₂, rfl, hfirst, hrest⟩ := runs_bind_ok.1 hrun
    obtain ⟨os', h₃, h₄, rfl, hothers, hpure⟩ := runs_bind_ok.1 hrest
    obtain ⟨rfl, hos⟩ := hpure
    cases hos
    obtain ⟨hquiet, v, hobserved, hverdict⟩ := observeExpectation_runs hfirst
    obtain ⟨hquiet', hexpected, hverdicts⟩ := ih hothers
    refine ⟨⟨?_, ?_, ?_, ?_, ?_⟩, ?_, ?_⟩
    · rw [List.append_nil, listed_append, hquiet.listed, hquiet'.listed]
      rfl
    · rw [List.append_nil, laterSeen_append, hquiet.laterSeen, hquiet'.laterSeen]
      rfl
    · rw [List.append_nil, answers_append, hquiet.answers, hquiet'.answers]
      rfl
    · rw [List.append_nil, verifiedIds_append, hquiet.verifiedIds, hquiet'.verifiedIds]
      rfl
    · rw [List.append_nil, remediations_append, hquiet.remediations, hquiet'.remediations]
      rfl
    · rw [List.append_nil, observed_append, hobserved, List.map_append, hexpected]
      rfl
    · rw [List.append_nil, observed_append, hobserved, List.map_append, ← hverdicts]
      simp [verdicts, hverdict]

end Observations

section Settlement

variable [PythonText] {cfg : ReviewConfig} {ticket : Ticket} {completedAt : Str}
  {expectations : List Expectation} {decision : ReviewDecision} {h : History Op.Reply}

/-- The policy lets an automatic remediation follow from the decision. -/
def Remediates (cfg : ReviewConfig) (ticket : Ticket) (expectations : List Expectation)
    (decision : ReviewDecision) : Prop :=
  decision.verdict = .incorrect ∧ cfg.autoRemediationEnabled = true ∧
    ∃ policy, evaluate cfg.maxGeneration ticket decision.repair expectations = .ok policy ∧
      policy.allowed = true

/-- The requests that a remediation of the ticket can have. -/
def Requested (cfg : ReviewConfig) (ticket : Ticket) (requestId : Str) : Prop :=
  ticket.remediationGeneration < max 0 cfg.maxGeneration ∧ ∃ repair entitiesHash,
    repair.capability ∈ autoAllowed ∧ repair.capability = ticket.intent ∧
    requestId = remediationRequestId ticket repair entitiesHash

omit [PythonText] in
theorem settleTransition_verified {ticketId reason : Str} {verdict : ReviewVerdict} :
    (settleTransition ticketId verdict reason).status = .verified ↔ verdict = .correct := by
  cases verdict with
  | incorrect =>
    have hstatus : (settleTransition ticketId .incorrect reason).status ≠ .verified := by
      by_cases hcap : reason = text "remediation_generation_cap_reached"
      · simp [settleTransition, hcap]
      · simp [settleTransition, hcap]
    simp [hstatus]
  | _ => simp [settleTransition]

omit [PythonText] in
theorem finishReview_runs {ticketId reason : Str} {outcome : ReviewOutcome}
    (hrun : Runs (finishReview cfg ticketId decision reason) h (.ok outcome)) :
    Blind h ∧ remediations h = [] ∧ (verifiedIds h ≠ [] ↔ decision.verdict = .correct) := by
  obtain ⟨updated, h₁, h₂, rfl, hmoved, hrest⟩ := runs_bind_ok.1 hrun
  have hidle : Idle h₂ := by
    refine Idle.of_safe ?_ hrest
    exact Safe.bind (enqueuePlane_quiet cfg ticketId) fun _ _ _ => safe_pure
  rcases runs_raising.1 hmoved with hasked | ⟨e, -, he⟩
  · obtain ⟨reply, rfl, -⟩ := runs_perform.1 hasked
    refine ⟨Blind.append ⟨rfl, rfl, rfl, rfl⟩ hidle.toBlind, ?_, ?_⟩
    · rw [remediations_append, hidle.remediations]
      rfl
    · rw [verifiedIds_append, hidle.verifiedIds, List.append_nil]
      by_cases hverdict : decision.verdict = .correct
      · simp [verifiedIds, settleTransition_verified, hverdict]
      · simp [verifiedIds, settleTransition_verified, hverdict]
  · cases he

theorem remediate_runs {repair : ReviewRepair} {child : Option Ticket}
    (hrun : Runs (remediate cfg ticket repair completedAt) h (.ok child)) :
    Blind h ∧ verifiedIds h = [] ∧
      ∃ entitiesHash, remediations h = [remediationRequestId ticket repair entitiesHash] := by
  obtain ⟨entitiesHash, h₁, h₂, rfl, hhashed, hrest⟩ := runs_bind_ok.1 hrun
  obtain ⟨rfl, -⟩ := runs_ofExcept.1 hhashed
  obtain ⟨existing, h₃, h₄, rfl, hasked, hmain⟩ := runs_bind_ok.1 hrest
  obtain ⟨reply, rfl, hreply⟩ := runs_perform.1 hasked
  cases hreply
  have hmain' (h : History Op.Reply) (receipts : List ReceiptRow) : Safe Quiet h
      (if receipts ≠ [] then Pure.pure existing else do
        let child ← childTicket ticket repair
          (remediationRequestId ticket repair entitiesHash) existing
        runRemediation cfg ticket repair (remediationRequestId ticket repair entitiesHash)
          completedAt child) :=
    Safe.ite safe_pure ((childTicket_quiet ..).bind fun _ child _ => runRemediation_quiet ..)
  have hidle : Idle h₄ := by
    refine Idle.of_safe ?_ hmain
    cases existing with
    | none => exact Safe.bind safe_pure fun _ receipts _ => hmain' ..
    | some child => exact Safe.bind (safe_quiet rfl) fun _ receipts _ => hmain' ..
  refine ⟨Blind.append ⟨rfl, rfl, rfl, rfl⟩ (Blind.append ⟨rfl, rfl, rfl, rfl⟩ hidle.toBlind),
    ?_, entitiesHash, ?_⟩
  · rw [List.nil_append, verifiedIds_append, hidle.verifiedIds]
    rfl
  · rw [List.nil_append, remediations_append, hidle.remediations]
    rfl

/-- What was done is what the decision says. -/
structure Decided (cfg : ReviewConfig) (ticket : Ticket) (expectations : List Expectation)
    (decision : ReviewDecision) (h : History Op.Reply) : Prop where
  verified : verifiedIds h ≠ [] ↔ decision.verdict = .correct
  remediated : remediations h ≠ [] ↔ Remediates cfg ticket expectations decision
  requested : ∀ requestId ∈ remediations h, Requested cfg ticket requestId

/-- What the settlement of a decision does. -/
structure Settles (cfg : ReviewConfig) (ticket : Ticket) (expectations : List Expectation)
    (decision : ReviewDecision) (h : History Op.Reply) : Prop
    extends Decided cfg ticket expectations decision h where
  blind : Blind h

theorem Settles.of_finish {reason : Str} {outcome : ReviewOutcome}
    (hrun : Runs (finishReview cfg ticket.ticketId decision reason) h (.ok outcome))
    (hnot : ¬Remediates cfg ticket expectations decision) :
    Settles cfg ticket expectations decision h := by
  obtain ⟨hblind, hnone, hverified⟩ := finishReview_runs hrun
  refine ⟨⟨hverified, ?_, ?_⟩, hblind⟩
  · simp [hnone, hnot]
  · simp [hnone]

theorem Settles.of_remediate {repair : ReviewRepair} {policy : RemediationPolicyDecision}
    {outcome : ReviewOutcome} (hverdict : decision.verdict = .incorrect)
    (hauto : cfg.autoRemediationEnabled = true)
    (hpolicy : evaluate cfg.maxGeneration ticket decision.repair expectations = .ok policy)
    (hallowed : policy.allowed = true) (hrepair : policy.repair = some repair)
    (hrun : Runs (do
      let child ← remediate cfg ticket repair completedAt
      let updated ← ask (.getTicket ticket.ticketId)
      enqueuePlane cfg ticket.ticketId
      match child with
      | some child => enqueuePlane cfg child.ticketId
      | none => Pure.pure ()
      Pure.pure (ReviewOutcome.remediationQueued updated child decision)) h (.ok outcome)) :
    Settles cfg ticket expectations decision h := by
  obtain ⟨child, h₁, h₂, rfl, hremediated, hrest⟩ := runs_bind_ok.1 hrun
  obtain ⟨hblind, hunverified, entitiesHash, hrequests⟩ := remediate_runs hremediated
  have hidle : Idle h₂ := by
    refine Idle.of_safe ?_ hrest
    refine Safe.bind (safe_quiet rfl) fun _ updated _ => ?_
    refine Safe.bind (enqueuePlane_quiet ..) fun _ _ _ => ?_
    cases child with
    | some child => exact Safe.bind (enqueuePlane_quiet ..) fun _ _ _ => safe_pure
    | none => exact Safe.bind safe_pure fun _ _ _ => safe_pure
  have hrequests' : remediations (h₁ ++ h₂) =
      [remediationRequestId ticket repair entitiesHash] := by
    rw [remediations_append, hrequests, hidle.remediations]
    rfl
  have hunverified' : verifiedIds (h₁ ++ h₂) = [] := by
    rw [verifiedIds_append, hunverified, hidle.verifiedIds]
    rfl
  refine ⟨⟨?_, ?_, ?_⟩, hblind.append hidle.toBlind⟩
  · simp [hunverified', hverdict]
  · simp only [hrequests', ne_eq, List.cons_ne_nil, not_false_eq_true, true_iff]
    exact ⟨hverdict, hauto, policy, hpolicy, hallowed⟩
  · intro requestId hmem
    obtain ⟨hcap, repair', hsame, hauto, hintent⟩ := evaluate_allowed hpolicy hallowed
    cases hsame.symm.trans hrepair
    rw [hrequests', List.mem_singleton] at hmem
    exact ⟨hcap, repair, entitiesHash, hauto, hintent, hmem⟩

theorem settleReview_runs {outcome : ReviewOutcome}
    (hrun : Runs (settleReview cfg ticket completedAt expectations decision) h (.ok outcome)) :
    Settles cfg ticket expectations decision h := by
  unfold settleReview at hrun
  split at hrun
  case h_4 hverdict =>
    obtain ⟨policy, h₁, h₂, rfl, hevaluated, hrest⟩ := runs_bind_ok.1 hrun
    obtain ⟨rfl, hpolicy⟩ := runs_ofExcept.1 hevaluated
    replace hpolicy := hpolicy.symm
    have hnot (hdenied : ¬(cfg.autoRemediationEnabled = true ∧ policy.allowed = true)) :
        ¬Remediates cfg ticket expectations decision := by
      rintro ⟨-, hauto, policy', hsame, hallowed⟩
      cases hsame.symm.trans hpolicy
      exact hdenied ⟨hauto, hallowed⟩
    split at hrest
    · next repair hrepair =>
      split at hrest
      · next hboth => exact .of_remediate hverdict hboth.1 hpolicy hboth.2 hrepair hrest
      · next hdenied => exact .of_finish hrest (hnot hdenied)
    · next hnone =>
      refine .of_finish hrest (hnot fun hboth => ?_)
      obtain ⟨-, repair, hrepair, -⟩ := evaluate_allowed hpolicy hboth.2
      cases hnone.symm.trans hrepair
  case h_1 hverdict | h_2 hverdict | h_3 hverdict =>
    refine .of_finish hrun fun hremediates => ?_
    cases hverdict.symm.trans hremediates.1

end Settlement

section Conduct

variable [PythonText] {cfg : ReviewConfig} {ticket : Ticket} {reviewRunId completedAt : Str}
  {h : History Op.Reply}

/-- What a review that ends has read, and that it has done what the effective decision says. -/
structure Reviewed (cfg : ReviewConfig) (ticket : Ticket) (observations : List SourceObservation)
    (model : ReviewDecision) (h : History Op.Reply) : Prop where
  answers : answers h = [model]
  observed : (observed h).map Prod.fst = listed h
  verdicts : verdicts observations = (Tickets.observed h).map fun p => p.2.getD .inconclusive
  decided : Decided cfg ticket (listed h) (effectiveDecision model observations (laterSeen h)) h

/-- The trail of a review: its observations, and the settlement at its end. -/
structure ReviewTrail (expectations : List Expectation) (later : List Ticket)
    (model : ReviewDecision) (observations settlement h : History Op.Reply) : Prop where
  listed : listed h = expectations
  observed : Tickets.observed h = Tickets.observed observations
  laterSeen : laterSeen h = later
  answers : Tickets.answers h = [model]
  verifiedIds : verifiedIds h = Tickets.verifiedIds settlement
  remediations : remediations h = Tickets.remediations settlement

omit [PythonText] in
theorem reviewTrail {observations record settlement : History Op.Reply}
    (ticket : Ticket) (expectations : List Expectation) (receipts : List ReceiptRow)
    (later : List Ticket) (contextHash : Str) (context : Except PyError Str)
    (model : ReviewDecision) (hobserving : Observing observations) (hidle : Idle record)
    (hblind : Blind settlement) :
    ReviewTrail expectations later model observations settlement
      ([⟨.listExpectations ticket.ticketId, expectations⟩] ++
        ([⟨.listReceipts ticket.ticketId, receipts⟩] ++ (observations ++
          ([⟨.findLaterTickets (ticket.resourceKey.getD [])
            (orText (ticket.completedAt.getD []) ticket.createdAt) ticket.ticketId, later⟩] ++
            ([⟨.buildContext ticket.ticketId, context⟩] ++
              ([⟨.review contextHash, .ok model⟩] ++ (record ++ settlement))))))) where
  listed := by
    simp only [listed_append, hobserving.listed, hidle.listed, hblind.listed]
    simp [listed]
  observed := by
    simp only [observed_append, hidle.observed, hblind.observed]
    simp [Tickets.observed]
  laterSeen := by
    simp only [laterSeen_append, hobserving.laterSeen, hidle.laterSeen, hblind.laterSeen]
    simp [laterSeen]
  answers := by
    simp only [answers_append, hobserving.answers, hidle.answers, hblind.answers]
    simp [Tickets.answers]
  verifiedIds := by
    simp only [verifiedIds_append, hobserving.verifiedIds, hidle.verifiedIds]
    simp [Tickets.verifiedIds]
  remediations := by
    simp only [remediations_append, hobserving.remediations, hidle.remediations]
    simp [Tickets.remediations]

theorem conductReview_runs {outcome : ReviewOutcome}
    (hrun : Runs (conductReview cfg ticket reviewRunId completedAt) h (.ok outcome)) :
    ∃ observations model, Reviewed cfg ticket observations model h := by
  obtain ⟨es, h₁, t₁, rfl, hlisted, hrest₁⟩ := runs_bind_ok.1 hrun
  obtain ⟨reply, rfl, hreply⟩ := runs_perform.1 hlisted
  cases hreply
  obtain ⟨receipts, h₂, t₂, rfl, hreceipts, hrest₂⟩ := runs_bind_ok.1 hrest₁
  obtain ⟨reply, rfl, hreply⟩ := runs_perform.1 hreceipts
  cases hreply
  obtain ⟨observations, h₃, t₃, rfl, hobserved, hrest₃⟩ := runs_bind_ok.1 hrest₂
  obtain ⟨hobserving, hexpected, hverdicts⟩ := observeAll_runs hobserved
  obtain ⟨later, h₄, t₄, rfl, hlater, hrest₄⟩ := runs_bind_ok.1 hrest₃
  obtain ⟨reply, rfl, hreply⟩ := runs_perform.1 hlater
  cases hreply
  obtain ⟨contextHash, h₅, t₅, rfl, hcontext, hrest₅⟩ := runs_bind_ok.1 hrest₄
  obtain hcontext | ⟨e, -, he⟩ := runs_raising.1 hcontext
  case inr => cases he
  obtain ⟨reply, rfl, hreply⟩ := runs_perform.1 hcontext
  obtain ⟨model, h₆, t₆, rfl, hmodel, hrest₆⟩ := runs_bind_ok.1 hrest₅
  obtain hmodel | ⟨e, -, he⟩ := runs_raising.1 hmodel
  case inr => cases he
  obtain ⟨reply', rfl, hreply'⟩ := runs_perform.1 hmodel
  cases hreply'
  obtain ⟨_, h₇, t₇, rfl, hrecorded, hsettled⟩ := runs_bind_ok.1 hrest₆
  have hidle : Idle h₇ := Idle.of_safe (recordReview_quiet ..) hrecorded
  have hsettles := settleReview_runs hsettled
  have htrail := reviewTrail ticket es receipts later contextHash reply model hobserving hidle
    hsettles.blind
  refine ⟨observations, model, htrail.answers, ?_, ?_, ?_⟩
  · rw [htrail.observed, htrail.listed, hexpected]
  · rw [htrail.observed, hverdicts]
  · rw [htrail.listed, htrail.laterSeen]
    refine ⟨?_, ?_, ?_⟩
    · rw [htrail.verifiedIds, hsettles.verified]
    · rw [htrail.remediations, hsettles.remediated]
    · rw [htrail.remediations]
      exact hsettles.requested

theorem prepend_reviewed {observations : List SourceObservation} {model : ReviewDecision}
    {before : History Op.Reply} (hidle : Idle before)
    (hreviewed : Reviewed cfg ticket observations model h) :
    Reviewed cfg ticket observations model (before ++ h) := by
  obtain ⟨hanswers, hobserved, hverdicts, hverified, hremediated, hrequested⟩ := hreviewed
  have hlisted : listed (before ++ h) = listed h := by rw [listed_append, hidle.listed]; rfl
  have hsame : observed (before ++ h) = observed h := by rw [observed_append, hidle.observed]; rfl
  have hlater : laterSeen (before ++ h) = laterSeen h := by
    rw [laterSeen_append, hidle.laterSeen]
    rfl
  have hdone : verifiedIds (before ++ h) = verifiedIds h := by
    rw [verifiedIds_append, hidle.verifiedIds]
    rfl
  have hsent : remediations (before ++ h) = remediations h := by
    rw [remediations_append, hidle.remediations]
    rfl
  refine ⟨?_, ?_, ?_, ?_, ?_, ?_⟩
  · rw [answers_append, hidle.answers, hanswers]
    rfl
  · rw [hsame, hlisted, hobserved]
  · rw [hsame, hverdicts]
  · rw [hdone, hlater, hverified]
  · rw [hsent, hlisted, hlater, hremediated]
  · rw [hsent]
    exact hrequested

/-- A job that completes was ignored, or the ticket it names was reviewed. -/
theorem processJob_runs {job : DurableJob} {outcome : ReviewOutcome}
    (hrun : Runs (processJob cfg job completedAt) h (.ok outcome)) :
    Idle h ∨ ∃ ticket observations model, (ticketsRead h).head? = some ticket ∧
      Reviewed cfg ticket observations model h := by
  obtain ⟨ticketId, h₁, t₁, rfl, hid, hrest₁⟩ := runs_bind_ok.1 hrun
  obtain ⟨rfl, -⟩ := runs_ofExcept.1 hid
  obtain ⟨revision, h₂, t₂, rfl, hrevision, hrest₂⟩ := runs_bind_ok.1 hrest₁
  obtain ⟨rfl, -⟩ := runs_ofExcept.1 hrevision
  obtain ⟨found, h₃, t₃, rfl, hfound, hrest₃⟩ := runs_bind_ok.1 hrest₂
  obtain ⟨reply, rfl, hreply⟩ := runs_perform.1 hfound
  cases hreply
  have hread : Idle [⟨.getTicket ticketId, found⟩] := ⟨⟨rfl, rfl, rfl, rfl⟩, rfl, rfl⟩
  simp only [List.nil_append] at hrest₃ ⊢
  cases found with
  | none =>
    obtain ⟨rfl, -⟩ := hrest₃
    exact .inl hread
  | some ticket =>
    simp only at hrest₃
    split at hrest₃
    · obtain ⟨rfl, -⟩ := hrest₃
      exact .inl hread
    split at hrest₃
    · obtain ⟨rfl, -⟩ := hrest₃
      exact .inl hread
    obtain ⟨reviewRunId, h₄, t₄, rfl, hnew, hrest₄⟩ := runs_bind_ok.1 hrest₃
    obtain ⟨reply, rfl, hreply⟩ := runs_perform.1 hnew
    obtain ⟨run, h₅, t₅, rfl, hstarted, hrest₅⟩ := runs_bind_ok.1 hrest₄
    obtain ⟨moved, h₆, t₆, rfl, hmoved, hrest₆⟩ := runs_bind_ok.1 hrest₅
    have hstarted' : Idle h₅ := Idle.of_safe (safe_quiet rfl).raising hstarted
    have hmoved' : Idle h₆ := Idle.of_safe (transitionProcess_quiet (by simp)) hmoved
    rcases runs_handle hrest₆ with ⟨outcome', hconducted, -⟩ | ⟨e, h₇, t₇, rfl, -, hfailed⟩
    · obtain ⟨observations, model, hreviewed⟩ := conductReview_runs hconducted
      refine .inr ⟨ticket, observations, model, rfl, ?_⟩
      refine prepend_reviewed hread (prepend_reviewed ?_ ?_)
      · exact ⟨⟨rfl, rfl, rfl, rfl⟩, rfl, rfl⟩
      · exact prepend_reviewed hstarted' (prepend_reviewed hmoved' hreviewed)
    · obtain ⟨_, _, _, -, -, hrest₇⟩ := runs_bind_ok.1 hfailed
      obtain ⟨_, _, _, -, -, hraised⟩ := runs_bind_ok.1 hrest₇
      cases hraised.2

end Conduct

section Decision

variable {model : ReviewDecision} {observations : List SourceObservation} {later : List Ticket}

theorem effectiveDecision_correct : (effectiveDecision model observations later).verdict = .correct ↔
    model.verdict = .correct ∧ .incorrect ∉ verdicts observations ∧
      .inconclusive ∉ verdicts observations := by
  simp only [effectiveDecision]
  split_ifs with hsuperseded hinconclusive hconflict hcorrect
  · simp [hsuperseded.1]
  · simp [hinconclusive, inconclusive]
  · simp [hconflict.1, inconclusive]
  · simp [hcorrect.2.2, inconclusive]
  · constructor
    · intro hverdict
      refine ⟨hverdict, fun hincorrect => hconflict ⟨hincorrect, ?_⟩, hinconclusive⟩
      simp [hverdict]
    · exact And.left

/-- A decision for a remediation is the model's own. -/
theorem effectiveDecision_incorrect :
    (effectiveDecision model observations later).verdict = .incorrect ↔
      model.verdict = .incorrect ∧ .inconclusive ∉ verdicts observations ∧
        (.incorrect ∈ verdicts observations → later = []) ∧
        ¬(verdicts observations ≠ [] ∧ ∀ v ∈ verdicts observations, v = .correct) := by
  simp only [effectiveDecision]
  split_ifs with hsuperseded hinconclusive hconflict hcorrect
  · simp [hsuperseded.1, hsuperseded.2]
  · simp [hinconclusive, inconclusive]
  · simp [hconflict.2, inconclusive]
  · simp only [inconclusive, reduceCtorEq, false_iff]
    rintro ⟨-, -, -, hnot⟩
    exact hnot ⟨hcorrect.1, hcorrect.2.1⟩
  · constructor
    · intro hverdict
      refine ⟨hverdict, hinconclusive, ?_, ?_⟩
      · intro hincorrect
        by_contra hlater
        exact hsuperseded ⟨hincorrect, hlater⟩
      · rintro ⟨hsome, hall⟩
        exact hcorrect ⟨hsome, hall, by simp [hverdict]⟩
    · exact And.left

/-- A decision that is acted on is the model's own. -/
theorem effectiveDecision_eq_model
    (h : (effectiveDecision model observations later).verdict = .correct ∨
      (effectiveDecision model observations later).verdict = .incorrect) :
    effectiveDecision model observations later = model := by
  simp only [effectiveDecision] at h ⊢
  split_ifs at h ⊢ <;> simp_all [inconclusive]

end Decision

section Soundness

variable [PythonText]

/-- Every verifier was registered and has found its expectation met. -/
def Confirmed (h : History Op.Reply) : Prop :=
  listed h ≠ [] ∧ observed h = (listed h).map fun e => (e, some .correct)

/-- A source is wrong, every verifier could tell, and no later ticket explains it. -/
def Contradicted (h : History Op.Reply) : Prop :=
  (∃ p ∈ observed h, p.2 = some .incorrect) ∧
    (∀ p ∈ observed h, p.2 ≠ none ∧ p.2 ≠ some .inconclusive) ∧ laterSeen h = []

/-- What a review may do on the evidence of the verifiers. -/
structure Sound (cfg : ReviewConfig) (h : History Op.Reply) : Prop where
  verified : verifiedIds h ≠ [] → Confirmed h
  remediated : remediations h ≠ [] → Contradicted h
  requested : ∀ requestId ∈ remediations h,
    ∃ ticket, (ticketsRead h).head? = some ticket ∧ Requested cfg ticket requestId

/-- No verifier objects, and the expectations that were met are not all of them, or there is
none. -/
def Unsettled (h : History Op.Reply) : Prop :=
  (∀ p ∈ observed h, p.2 = some .correct ∨ p.2 = some .superseded) ∧
    (observed h = [] ∨ ∃ p ∈ observed h, p.2 = some .superseded)

/-- The model's verdict stands alone, and it is one that is acted on. -/
def Trusted (cfg : ReviewConfig) (h : History Op.Reply) : Prop :=
  Unsettled h ∧ ∃ ticket model, (ticketsRead h).head? = some ticket ∧ answers h = [model] ∧
    (model.verdict = .correct ∨ Remediates cfg ticket (listed h) model)

variable {cfg : ReviewConfig} {h : History Op.Reply} {ticket : Ticket}

omit [PythonText] in
theorem Idle.sound (hidle : Idle h) : Sound cfg h where
  verified hverified := absurd hidle.verifiedIds hverified
  remediated hremediated := absurd hidle.remediations hremediated
  requested requestId hmem := by simp [hidle.remediations] at hmem

theorem Idle.not_trusted (hidle : Idle h) : ¬Trusted cfg h := by
  rintro ⟨-, ticket, model, -, hanswers, -⟩
  simp [hidle.answers] at hanswers

omit [PythonText] in
/-- Where no verdict is inconclusive, every verifier was registered and could tell. -/
theorem told {observations : List SourceObservation}
    (hverdicts : verdicts observations = (observed h).map fun p => p.2.getD .inconclusive)
    (hconclusive : .inconclusive ∉ verdicts observations) {p : Expectation × Option ReviewVerdict}
    (hp : p ∈ observed h) : ∃ v ∈ verdicts observations, p.2 = some v := by
  have hmem : p.2.getD .inconclusive ∈ verdicts observations := by
    rw [hverdicts]
    exact List.mem_map_of_mem hp
  refine ⟨_, hmem, ?_⟩
  cases hv : p.2 with
  | none =>
    rw [hv] at hmem
    exact absurd hmem hconclusive
  | some v => rfl

omit [PythonText] in
theorem correct_or_superseded {observations : List SourceObservation}
    (hverdicts : verdicts observations = (observed h).map fun p => p.2.getD .inconclusive)
    (hincorrect : .incorrect ∉ verdicts observations)
    (hconclusive : .inconclusive ∉ verdicts observations) :
    ∀ p ∈ observed h, p.2 = some .correct ∨ p.2 = some .superseded := by
  intro p hp
  obtain ⟨v, hv, hsome⟩ := told hverdicts hconclusive hp
  cases v with
  | correct => exact .inl hsome
  | superseded => exact .inr hsome
  | incorrect => exact absurd hv hincorrect
  | inconclusive => exact absurd hv hconclusive

omit [PythonText] in
theorem confirmed_of_settled (hexpected : (observed h).map Prod.fst = listed h)
    (htold : ∀ p ∈ observed h, p.2 = some .correct ∨ p.2 = some .superseded)
    (hsettled : ¬Unsettled h) : Confirmed h := by
  have hrest : observed h ≠ [] ∧ ∀ p ∈ observed h, p.2 ≠ some .superseded := by
    constructor
    · exact fun hempty => hsettled ⟨htold, .inl hempty⟩
    · exact fun p hp hsuperseded => hsettled ⟨htold, .inr ⟨p, hp, hsuperseded⟩⟩
  refine ⟨?_, ?_⟩
  · rw [← hexpected]
    simpa using hrest.1
  · rw [← hexpected, List.map_map]
    refine (List.map_id _).symm.trans (List.map_congr_left fun p hp => ?_)
    exact Prod.ext rfl ((htold p hp).resolve_right (hrest.2 p hp))

omit [PythonText] in
theorem Unsettled.not_confirmed (hunsettled : Unsettled h) : ¬Confirmed h := by
  rintro ⟨hsome, hall⟩
  rcases hunsettled.2 with hempty | ⟨p, hp, hsuperseded⟩
  · rw [hempty] at hall
    exact hsome (List.map_eq_nil_iff.1 hall.symm)
  · rw [hall] at hp
    obtain ⟨e, -, rfl⟩ := List.mem_map.1 hp
    cases hsuperseded

omit [PythonText] in
/-- On unsettled evidence the decision is the model's. -/
theorem Unsettled.decides {observations : List SourceObservation}
    (hverdicts : verdicts observations = (observed h).map fun p => p.2.getD .inconclusive)
    (hunsettled : Unsettled h) (v : ReviewVerdict) (hv : v ∈ verdicts observations) :
    v = .correct ∨ v = .superseded := by
  rw [hverdicts] at hv
  obtain ⟨p, hp, rfl⟩ := List.mem_map.1 hv
  rcases hunsettled.1 p hp with hsome | hsome
  · exact .inl (by rw [hsome]; rfl)
  · exact .inr (by rw [hsome]; rfl)

/-- A decision to verify rests on the evidence unless the model stands alone. -/
theorem reviewed_sound {observations : List SourceObservation} {model : ReviewDecision}
    (hhead : (ticketsRead h).head? = some ticket)
    (hreviewed : Reviewed cfg ticket observations model h) (htrusted : ¬Trusted cfg h) :
    Sound cfg h where
  verified hverified := by
    have hcorrect := hreviewed.decided.verified.1 hverified
    obtain ⟨hmodel, hincorrect, hconclusive⟩ := effectiveDecision_correct.1 hcorrect
    refine confirmed_of_settled hreviewed.observed
      (correct_or_superseded hreviewed.verdicts hincorrect hconclusive) fun hunsettled => ?_
    exact htrusted ⟨hunsettled, ticket, model, hhead, hreviewed.answers, .inl hmodel⟩
  remediated hremediated := by
    have hremediates := hreviewed.decided.remediated.1 hremediated
    have hsame := effectiveDecision_eq_model (.inr hremediates.1)
    obtain ⟨-, hconclusive, hlater, hnotAll⟩ := effectiveDecision_incorrect.1 hremediates.1
    by_cases hincorrect : .incorrect ∈ verdicts observations
    · refine ⟨?_, fun p hp => ?_, hlater hincorrect⟩
      · rw [hreviewed.verdicts] at hincorrect
        obtain ⟨p, hp, hverdict⟩ := List.mem_map.1 hincorrect
        obtain ⟨v, -, hsome⟩ := told hreviewed.verdicts hconclusive hp
        exact ⟨p, hp, by rw [hsome] at hverdict ⊢; rw [← hverdict]; rfl⟩
      · obtain ⟨v, hv, hsome⟩ := told hreviewed.verdicts hconclusive hp
        rw [hsome]
        refine ⟨nofun, ?_⟩
        rintro ⟨⟩
        exact hconclusive hv
    · have htold := correct_or_superseded hreviewed.verdicts hincorrect hconclusive
      refine absurd ⟨⟨htold, ?_⟩, ticket, model, hhead, hreviewed.answers,
        .inr (hsame ▸ hremediates)⟩ htrusted
      by_contra hsettled
      obtain ⟨hsome, hall⟩ := not_or.1 hsettled
      refine hnotAll ⟨?_, ?_⟩
      · rw [hreviewed.verdicts]
        simpa using hsome
      · rw [hreviewed.verdicts]
        intro v hv
        obtain ⟨p, hp, rfl⟩ := List.mem_map.1 hv
        have hcorrect := (htold p hp).resolve_right fun hsup => hall ⟨p, hp, hsup⟩
        rw [hcorrect]
        rfl
  requested requestId hmem := ⟨ticket, hhead, hreviewed.decided.requested requestId hmem⟩

theorem reviewed_not_trusted {observations : List SourceObservation} {model : ReviewDecision}
    (hhead : (ticketsRead h).head? = some ticket)
    (hreviewed : Reviewed cfg ticket observations model h) (hsound : Sound cfg h) :
    ¬Trusted cfg h := by
  rintro ⟨hunsettled, ticket', model', hhead', hanswers, hacts⟩
  cases hhead.symm.trans hhead'
  cases hreviewed.answers.symm.trans hanswers
  have hdecides := hunsettled.decides hreviewed.verdicts
  have hincorrect : .incorrect ∉ verdicts observations := fun h => by
    simpa using hdecides _ h
  have hconclusive : .inconclusive ∉ verdicts observations := fun h => by
    simpa using hdecides _ h
  rcases hacts with hcorrect | hremediates
  · have hdecision : (effectiveDecision model observations (laterSeen h)).verdict = .correct :=
      effectiveDecision_correct.2 ⟨hcorrect, hincorrect, hconclusive⟩
    exact hunsettled.not_confirmed (hsound.verified (hreviewed.decided.verified.2 hdecision))
  · have hnotAll : ¬(verdicts observations ≠ [] ∧ ∀ v ∈ verdicts observations, v = .correct) := by
      rintro ⟨hsome, hall⟩
      rw [hreviewed.verdicts] at hsome hall
      rcases hunsettled.2 with hempty | ⟨p, hp, hsuperseded⟩
      · exact hsome (by rw [hempty]; rfl)
      · have hv := hall _ (List.mem_map_of_mem hp)
        rw [hsuperseded] at hv
        cases hv
    have hdecision : (effectiveDecision model observations (laterSeen h)).verdict = .incorrect :=
      effectiveDecision_incorrect.2
        ⟨hremediates.1, hconclusive, fun h => absurd h hincorrect, hnotAll⟩
    have hsame := effectiveDecision_eq_model (.inr hdecision)
    have hdone := hreviewed.decided.remediated.2 (hsame.symm ▸ hremediates)
    obtain ⟨⟨p, hp, hwrong⟩, -⟩ := hsound.remediated hdone
    rcases hunsettled.1 p hp with hsome | hsome
    · cases hsome.symm.trans hwrong
    · cases hsome.symm.trans hwrong

end Soundness

section Samples

/-- A configuration without a projection and without automatic remediations. -/
def sampleConfig : ReviewConfig where
  workerId := text "worker"
  batchSize := 1
  leaseSeconds := .micros 60000000
  reviewDelaySeconds := .micros 0
  reviewMaxAttempts := 3
  promptVersion := text "1"
  modelName := text "model"
  autoRemediationEnabled := false
  maxGeneration := 1
  planeEnabled := false
  hasGateway := false
  payload _ := []

/-- A model that finds every ticket correct. -/
def sampleDecision : ReviewDecision := ⟨.correct, confidenceOne, [], [], [], none⟩

/-- A ticket that waits for its review. -/
def sampleReviewed : Ticket where
  ticketId := text "t1"
  rootTicketId := text "t1"
  parentTicketId := none
  ticketKind := .original
  remediationGeneration := 0
  status := .verificationPending
  version := 1
  originRequestId := text "r1"
  sessionId := []
  userId := []
  agentId := []
  source := []
  intent := text "lists.create_list"
  skillId := none
  route := []
  resourceKey := none
  title := []
  createdAt := []
  lastMaterialActivityAt := []
  completedAt := none
  reviewDueAt := none
  sourceActionRevision := none
  expectedEffectHash := none
  planeWorkItemId := none
  planeSyncStatus := []
  terminalReason := none

def sampleEntry : TicketEntry where
  entryId := text "e1"
  ticketId := text "t1"
  sequenceNumber := 1
  requestId := text "r1"
  entryType := .reviewResult
  actorType := []
  actorId := none
  createdAt := []
  verbatimText := none
  structuredPayload := .null
  contentHash := []
  dedupeKey := []

def sampleRun : ReviewRun where
  reviewRunId := text "rr1"
  ticketId := text "t1"
  sourceActionRevision := []
  attemptNumber := 1
  status := .running
  deterministicVerdict := none
  modelVerdict := none
  modelName := none
  promptVersion := text "1"
  contextPackHash := none
  sourceEvidence := .null
  sourceEvidenceHash := none
  discrepancy := []
  proposedRepair := none
  startedAt := []
  completedAt := none
  errorCode := none

def sampleJob : DurableJob where
  jobId := text "j1"
  jobType := text "ticket_review"
  aggregateId := text "t1"
  idempotencyKey := []
  payloadJson := []
  status := .running
  availableAt := []
  attemptCount := 1
  maxAttempts := 3
  leaseOwner := none
  leaseExpiresAt := none
  lastErrorCode := none
  createdAt := []
  updatedAt := []
  leaseFencingToken := 1
  progressCurrent := 0
  progressTotal := none
  currentStage := none
  stageStartedAt := none
  cancelRequestedAt := none
  cancelledAt := none
  priority := 0
  resourceClass := .cpuSmall
  providerOperationRef := none
  providerReconcileState := none
  totalDeadlineAt := none

/-- The replies in a review of a ticket without expectations, by a model that finds it
correct. -/
def sampleReplies : (op : Op) → op.Reply
  | .newId => text "rr1"
  | .getTicket _ => some sampleReviewed
  | .getTicketByRequestId _ | .getEntryByDedupe _ | .getJob _ | .observe .. => none
  | .createTicket _ | .completeReviewRun _ => .ok none
  | .transitionTicket _ => .ok (some sampleReviewed)
  | .appendEntry _ | .reserve _ | .recordChildOutcome _ => .ok sampleEntry
  | .listEntries _ | .listExecutionManifests _ | .listReceipts _ | .listExpectations _
  | .findLaterTickets .. => []
  | .recordOperationCompletion _ => .error (.lookupError "receipt")
  | .scheduleVerification _ | .enqueueJob _ => .ok sampleJob
  | .startReviewRun _ => .ok sampleRun
  | .claimJobs .. => .ok [sampleJob]
  | .completeJob .. | .retryJob .. => .ok true
  | .buildContext _ => .ok []
  | .review _ => .ok sampleDecision
  | .executeRemediation .. => .ok .null
  | .hasRecentLiveInput => false

/-- The run of that review. -/
def sampleReview : History Op.Reply × Except PyError ReviewOutcome :=
  answered sampleReplies (@processJob asciiText sampleConfig sampleJob [])

theorem sampleReview_ends : sampleReview.2.isOk = true := by decide +kernel

theorem sampleReview_verifies : verifiedIds sampleReview.1 = [text "t1"] := by decide +kernel

theorem sampleReview_listed : listed sampleReview.1 = [] := by decide +kernel

theorem sampleReview_runs : ∃ outcome,
    Runs (@processJob asciiText sampleConfig sampleJob []) sampleReview.1 (.ok outcome) := by
  have hruns := runs_answered sampleReplies (@processJob asciiText sampleConfig sampleJob [])
  have hok := sampleReview_ends
  cases hend : sampleReview.2 with
  | error e =>
    rw [hend] at hok
    cases hok
  | ok outcome =>
    refine ⟨outcome, ?_⟩
    rw [← hend]
    exact hruns

end Samples

end HardyAI.Tickets
