import HardyAI.Reviews.ProposalCases

/-! What a decision call is answered with when its idempotency key has been used before. -/

open Foundation Foundation.Json Foundation.Trace HardyAI.Jobs

namespace HardyAI.Reviews

section Calls

/-- The arguments of `decide`. -/
structure DecideArgs where
  reviewId : Str
  boundItemHash : Str
  decision : ReviewDecisionKind
  actorPrincipal : Str
  reason : Str
  idempotencyKey : Str
  editedValueRef : Option Str

inductive DecisionCall
  | proposal (d : DecisionRequest)
  | item (a : DecideArgs)

/-- What a request decides: a review, which way, by whom, and of which version. -/
structure Decided where
  reviewId : Str
  decision : ReviewDecisionKind
  actorPrincipal : Str
  boundItemHash : Str
  deriving DecidableEq

def DecisionCall.asks : DecisionCall → Decided
  | .proposal d => ⟨d.reviewId, d.decision, d.actorPrincipal, d.boundProposalHash⟩
  | .item a => ⟨a.reviewId, a.decision, a.actorPrincipal, a.boundItemHash⟩

def DecisionCall.idempotencyKey : DecisionCall → Str
  | .proposal d => d.idempotencyKey
  | .item a => a.idempotencyKey

def ReviewDecision.decided (d : ReviewDecision) : Decided :=
  ⟨d.reviewId, d.decision, d.actorPrincipal, d.boundItemHash⟩

variable [PythonText]

/-- The transaction of a call. -/
def DecisionCall.run (fresh : Fresh) : DecisionCall → Transaction ReviewDb ReviewDecision
  | .proposal d => (decideActionProposal d fresh).mapReply (·.decision)
  | .item a => decide a.reviewId a.boundItemHash a.decision a.actorPrincipal a.reason
      a.idempotencyKey a.editedValueRef fresh

omit [PythonText] in
/-- Every call sweeps first. -/
def swept (db : ReviewDb) (fresh : Fresh) : ReviewDb := (expireDue (isoUtc fresh.now)).commit db

/-- The database after a whole call. -/
def afterDecision (db : ReviewDb) (c : DecisionCall × Fresh) : ReviewDb :=
  (c.1.run c.2).commit (swept db c.2)

def decisionReply (db : ReviewDb) (c : DecisionCall × Fresh) : Except PyError ReviewDecision :=
  (c.1.run c.2).reply (swept db c.2)

def afterDecisions (db : ReviewDb) (cs : List (DecisionCall × Fresh)) : ReviewDb :=
  run afterDecision db cs

/-- The decision that is returned is the one that was asked for, and a key that stands for another
review or another decision is refused without effect. -/
structure Faithful (db : ReviewDb) (c : DecisionCall × Fresh) : Prop where
  returned : ∀ d, decisionReply db c = .ok d → d.decided = c.1.asks
  refused : ∀ old, db.decisionForKey? c.1.idempotencyKey = some old →
    old.reviewId ≠ c.1.asks.reviewId ∨ old.decision ≠ c.1.asks.decision →
    (∃ e, decisionReply db c = .error e) ∧ afterDecision db c = swept db c.2

/-- A decision on a plain review either names a review that needs a bound decision, or comes with
a key that is new or stands for the very same decision. -/
def KeyBound (db : ReviewDb) : DecisionCall → Prop
  | .proposal _ => True
  | .item a => (db.proposalForReview? a.reviewId).isSome = true ∨
      ∀ old, db.decisionForKey? a.idempotencyKey = some old →
        old.decided = (DecisionCall.item a).asks

end Calls

section Replay

variable [PythonText] {db : ReviewDb} {fresh : Fresh}

omit [PythonText] in
theorem decisionForKey?_swept (db : ReviewDb) (fresh : Fresh) (key : Str) :
    (swept db fresh).decisionForKey? key = db.decisionForKey? key := rfl

omit [PythonText] in
theorem proposalForReview?_isSome {reviewId : Str} :
    (db.proposalForReview? reviewId).isSome = true ↔
      reviewId ∈ db.proposals.rows.map (·.reviewId) := by
  rw [ReviewDb.proposalForReview?, List.find?_isSome, List.mem_map]
  simp only [decide_eq_true_eq]

omit [PythonText] in
theorem proposalForReview?_swept (db : ReviewDb) (fresh : Fresh) (reviewId : Str) :
    ((swept db fresh).proposalForReview? reviewId).isSome =
      (db.proposalForReview? reviewId).isSome := by
  have hids := (@expireDue_moves db (isoUtc fresh.now)).ids
  have hreviews : (swept db fresh).proposals.rows.map (·.reviewId) =
      db.proposals.rows.map (·.reviewId) := by
    have hsnd := congrArg (List.map Prod.snd) hids
    rw [List.map_map, List.map_map] at hsnd
    exact hsnd
  rw [Bool.eq_iff_iff, proposalForReview?_isSome, proposalForReview?_isSome, hreviews]

/-- A bound decision compares a recorded key with the whole request. -/
theorem faithful_proposal (db : ReviewDb) (d : DecisionRequest) (fresh : Fresh) :
    Faithful db (.proposal d, fresh) := by
  constructor
  · intro decision hreply
    rw [decisionReply, DecisionCall.run, Transaction.reply_mapReply] at hreply
    cases hdecided : decideActionProposal d fresh (swept db fresh) with
    | error e => simp [Transaction.reply, hdecided, Except.map] at hreply
    | ok p =>
      simp only [Transaction.reply, hdecided, Except.map, Except.ok.injEq] at hreply
      simp only [decideActionProposal, bind_eq_ok, named_eq_ok, require_eq_ok,
        decide_eq_true_eq] at hdecided
      obtain ⟨proposal, hproposal, _, hreview, hdecided⟩ := hdecided
      split at hdecided
      · next existing hexisting =>
        simp only [bind_eq_ok, Except.ok.injEq, require_eq_ok, decide_eq_true_eq] at hdecided
        obtain ⟨_, ⟨hsame, hkind, hactor, -, hhash, -⟩, rfl⟩ := hdecided
        subst hreply
        simp only [ReviewDecision.decided, DecisionCall.asks, hsame, hkind, hactor, hhash]
      · simp only [bind_eq_ok, Except.ok.injEq] at hdecided
        obtain ⟨_, hchecked, written, hwritten, _, _, ⟨job, queued⟩, hjob, _, _, _, _, rfl⟩ := hdecided
        subst hreply
        rfl
  · intro old hold hother
    rw [← decisionForKey?_swept db fresh] at hold
    have herror : ∃ e, decideActionProposal d fresh (swept db fresh) = .error e := by
      cases hdecided : decideActionProposal d fresh (swept db fresh) with
      | error e => exact ⟨e, rfl⟩
      | ok p =>
        simp only [decideActionProposal, bind_eq_ok, named_eq_ok, require_eq_ok,
          decide_eq_true_eq] at hdecided
        obtain ⟨proposal, hproposal, _, hreview, hdecided⟩ := hdecided
        have hkey : (swept db fresh).decisionForKey? d.idempotencyKey = some old := hold
        rw [hkey] at hdecided
        simp only [bind_eq_ok, Except.ok.injEq, require_eq_ok, decide_eq_true_eq] at hdecided
        obtain ⟨_, ⟨hsame, hkind, -⟩, -⟩ := hdecided
        rcases hother with hne | hne
        · exact absurd hsame hne
        · exact absurd hkind hne
    obtain ⟨e, he⟩ := herror
    refine ⟨⟨e, ?_⟩, ?_⟩
    · rw [decisionReply, DecisionCall.run, Transaction.reply_mapReply, Transaction.reply, he]
      rfl
    · rw [afterDecision, DecisionCall.run, Transaction.commit_mapReply]
      exact Transaction.commit_of_error he

/-- What `decide` returns for a key that has been used, and for a new one. -/
theorem decide_cases (db : ReviewDb) (a : DecideArgs) (fresh : Fresh) :
    ((db.proposalForReview? a.reviewId).isSome = true ∧
      ∃ e, (DecisionCall.item a).run fresh (swept db fresh) = .error e) ∨
    ((db.proposalForReview? a.reviewId).isSome = false ∧
      ∃ old, db.decisionForKey? a.idempotencyKey = some old ∧
        (DecisionCall.item a).run fresh (swept db fresh) = .ok (old, swept db fresh)) ∨
    ((db.proposalForReview? a.reviewId).isSome = false ∧
      db.decisionForKey? a.idempotencyKey = none ∧
      ∀ d db', (DecisionCall.item a).run fresh (swept db fresh) = .ok (d, db') →
        d.decided = (DecisionCall.item a).asks) := by
  have hlinked := proposalForReview?_swept db fresh a.reviewId
  cases hreview : (db.proposalForReview? a.reviewId).isSome with
  | true =>
    obtain ⟨proposal, hproposal⟩ := Option.isSome_iff_exists.1 (hlinked.trans hreview)
    refine .inl ⟨rfl, .valueError "action_review_requires_bound_decision", ?_⟩
    simp only [DecisionCall.run, decide, hproposal, Option.isNone_some]
    rfl
  | false =>
    have hfree : (swept db fresh).proposalForReview? a.reviewId = none :=
      Option.not_isSome_iff_eq_none.1 (by rw [hlinked, hreview]; exact Bool.false_ne_true)
    refine .inr ?_
    cases hkey : db.decisionForKey? a.idempotencyKey with
    | some old =>
      have hfound : (swept db fresh).decisionForKey? a.idempotencyKey = some old := hkey
      refine .inl ⟨rfl, old, rfl, ?_⟩
      simp only [DecisionCall.run, decide, hfree, Option.isNone_none, hfound]
      rfl
    | none =>
      have hfound : (swept db fresh).decisionForKey? a.idempotencyKey = none := hkey
      refine .inr ⟨rfl, rfl, fun d db' hrun => ?_⟩
      simp only [DecisionCall.run, decide, hfound, bind_eq_ok, Except.ok.injEq, Prod.mk.injEq] at hrun
      obtain ⟨_, _, _, _, _, _, _, _, _, _, written, hwritten, _, _, rfl, _⟩ := hrun
      rfl

theorem faithful_item_iff (db : ReviewDb) (a : DecideArgs) (fresh : Fresh) :
    Faithful db (.item a, fresh) ↔ KeyBound db (.item a) := by
  rcases decide_cases db a fresh with ⟨hlinked, e, he⟩ | ⟨hfree, old, hold, hok⟩ |
    ⟨hfree, hnone, hok⟩
  · have hreply : decisionReply db (.item a, fresh) = .error e := by
      rw [decisionReply, Transaction.reply, he]
      rfl
    refine ⟨fun _ => .inl hlinked, fun _ => ⟨fun d hd => ?_, fun old _ _ => ⟨⟨e, hreply⟩, ?_⟩⟩⟩
    · rw [hreply] at hd
      cases hd
    · exact Transaction.commit_of_error he
  · have hreply : decisionReply db (.item a, fresh) = .ok old := by
      rw [decisionReply, Transaction.reply, hok]
      rfl
    constructor
    · intro h
      refine .inr fun old' hold' => ?_
      obtain rfl : old = old' := Option.some.inj (hold.symm.trans hold')
      exact h.returned old hreply
    · rintro (hlinked | hbound)
      · rw [hfree] at hlinked
        cases hlinked
      · have hsame : old.decided = (DecisionCall.item a).asks := hbound old hold
        refine ⟨fun d hd => ?_, fun old' hold' hother => ?_⟩
        · rw [hreply] at hd
          cases hd
          exact hsame
        · obtain rfl : old = old' := Option.some.inj (hold.symm.trans hold')
          have hreview : old.reviewId = (DecisionCall.item a).asks.reviewId :=
            congrArg Decided.reviewId hsame
          have hkind : old.decision = (DecisionCall.item a).asks.decision :=
            congrArg Decided.decision hsame
          rcases hother with hne | hne
          · exact absurd hreview hne
          · exact absurd hkind hne
  · refine ⟨fun _ => .inr fun old hold => ?_, fun _ => ⟨fun d hd => ?_, fun old hold => ?_⟩⟩
    · have hsome : db.decisionForKey? a.idempotencyKey = some old := hold
      rw [hnone] at hsome
      cases hsome
    · cases hrun : (DecisionCall.item a).run fresh (swept db fresh) with
      | error e => simp [decisionReply, Transaction.reply, hrun, Except.map] at hd
      | ok p =>
        simp only [decisionReply, Transaction.reply, hrun, Except.map, Except.ok.injEq] at hd
        subst hd
        exact hok p.1 p.2 hrun
    · have hsome : db.decisionForKey? a.idempotencyKey = some old := hold
      rw [hnone] at hsome
      cases hsome

end Replay

/-- All along a run of decisions, a call is answered faithfully exactly if its key is bound. -/
theorem faithful_iff_keyBound [PythonText] (db : ReviewDb) (calls : List (DecisionCall × Fresh)) :
    ∀ before c rest, calls = before ++ c :: rest →
      (Faithful (afterDecisions db before) c ↔ KeyBound (afterDecisions db before) c.1) := by
  rintro before ⟨call, fresh⟩ rest -
  cases call with
  | proposal d => exact ⟨fun _ => trivial, fun _ => faithful_proposal _ d fresh⟩
  | item a => exact faithful_item_iff _ a fresh

section Samples

def reviewRequest (subject : Str) : ReviewRequest where
  reviewKind := .quality
  subjectType := "document"
  subjectId := subject
  subjectVersion := "1"
  itemHash := "aa"
  sensitivity := "normal"

def freshAt (second : Fin 86400) (review decision : Str) : Fresh where
  reviewId := review
  decisionId := decision
  now := ⟨63871200000000000 + second.val * 1000000, by unfold maxMicros; omega⟩

/-- Two reviews that wait for a decision. -/
def twoReviews : ReviewDb :=
  @dbAfter asciiText [.create (reviewRequest "d1") (freshAt 0 "r1" []),
    .create (reviewRequest "d2") (freshAt 1 "r2" [])]

def decideReview (review : Str) (decision : ReviewDecisionKind) : DecisionCall :=
  .item ⟨review, "aa", decision, "user:1", "checked", "key-1", none⟩

theorem faithful_iff_keyBound_first :
    @Faithful asciiText (@afterDecisions asciiText twoReviews [])
      (decideReview "r1" .approve, freshAt 2 [] "d1") := by
  refine (@faithful_iff_keyBound asciiText twoReviews
    [(decideReview "r1" .approve, freshAt 2 [] "d1")] []
    (decideReview "r1" .approve, freshAt 2 [] "d1") [] rfl).2 (.inr fun old hold => ?_)
  have hnew : twoReviews.decisionForKey? "key-1" = none := by decide +kernel
  cases hnew.symm.trans hold

theorem toOption_eq_some {α : Type} {x : Except PyError α} {a : α} (h : x.toOption = some a) :
    x = .ok a := by
  cases x with
  | error e => cases h
  | ok b => exact congrArg Except.ok (Option.some.inj h)

/-- A second review is to be rejected under the key of an approval. -/
theorem reused_key_returns_other_decision :
    ¬ ∀ before c rest, [(decideReview "r1" .approve, freshAt 2 [] "d1"),
        (decideReview "r2" .reject, freshAt 3 [] "d2")] = before ++ c :: rest →
      @Faithful asciiText (@afterDecisions asciiText twoReviews before) c := by
  intro h
  have hfaithful := h [(decideReview "r1" .approve, freshAt 2 [] "d1")]
    (decideReview "r2" .reject, freshAt 3 [] "d2") [] rfl
  have hreplayed : ∃ d ∈ (@decisionReply asciiText (@afterDecisions asciiText twoReviews
      [(decideReview "r1" .approve, freshAt 2 [] "d1")])
      (decideReview "r2" .reject, freshAt 3 [] "d2")).toOption, d.reviewId = text "r1" := by
    decide +kernel
  obtain ⟨d, hd, hreview⟩ := hreplayed
  have hreply := toOption_eq_some hd
  have hother : d.reviewId = text "r2" :=
    congrArg Decided.reviewId (@Faithful.returned asciiText _ _ hfaithful d hreply)
  exact absurd (hreview.symm.trans hother) (by decide)

end Samples

end HardyAI.Reviews
