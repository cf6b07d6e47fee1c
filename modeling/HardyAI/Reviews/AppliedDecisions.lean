import HardyAI.Reviews.ProposalCases

/-! What repeated calls of `mark_applied` leave of a receipt and of an executed review. -/

open Foundation Foundation.Json Foundation.Trace HardyAI.Jobs

namespace HardyAI.Reviews

section Calls

/-- The arguments of `mark_applied` of the repository. -/
structure ApplyCall where
  decisionId : Str
  actionReceiptRef : Option Str
  now : Instant

/-- `mark_applied` of the service, which passes on a bounded receipt. -/
def ApplyCall.ofService (decisionId : Str) (actionReceiptRef : Option Str) (now : Instant) :
    ApplyCall where
  decisionId
  actionReceiptRef := if actionReceiptRef.getD [] = [] then none
    else actionReceiptRef.map fun ref => (strip ref).take 240
  now

def afterApply (db : ReviewDb) (c : ApplyCall) : ReviewDb :=
  (markApplied c.decisionId c.actionReceiptRef c.now).commit db

def afterApplies (db : ReviewDb) (cs : List ApplyCall) : ReviewDb := run afterApply db cs

/-- A recorded receipt is recorded still, and an executed review is executed still. -/
structure Lasts (db db' : ReviewDb) : Prop where
  receipt : ∀ id d ref, db.decisions.find? id = some d → d.actionReceiptRef = some ref →
    ∃ d', db'.decisions.find? id = some d' ∧ d'.actionReceiptRef = some ref
  executed : ∀ id item, db.item? id = some item → item.state = .executed →
    ∃ item', db'.item? id = some item' ∧ item'.state = .executed

/-- A call on an approved decision that is not for an action names no other receipt than the one
recorded, and names one where the review has been executed. -/
def Restates (db : ReviewDb) (c : ApplyCall) : Prop :=
  ∀ d, db.decisions.find? c.decisionId = some d → d.decision = .approve →
    db.proposalForReview? d.reviewId = none →
    (∀ ref, d.actionReceiptRef = some ref → c.actionReceiptRef = none ∨ c.actionReceiptRef = some ref) ∧
    ∀ item, db.item? d.reviewId = some item → item.state = .executed →
      c.actionReceiptRef.getD [] ≠ []

end Calls

section Applied

variable {db : ReviewDb} {c : ApplyCall} {d : ReviewDecision}

/-- The state that an application moves the review item to. -/
def appliedState (receipt : Option Str) : ReviewState :=
  if receipt.getD [] ≠ [] then .executed else .applied

/-- A call does nothing, or writes a decision and its review item. -/
theorem afterApply_cases (db : ReviewDb) (c : ApplyCall) :
    (afterApply db c = db ∧ ¬∃ d, db.decisions.find? c.decisionId = some d ∧
      d.decision = .approve ∧ db.proposalForReview? d.reviewId = none) ∨
    ∃ d, db.decisions.find? c.decisionId = some d ∧ d.decision = .approve ∧
      db.proposalForReview? d.reviewId = none ∧
      (∀ id, (afterApply db c).decisions.find? id = (db.decisions.find? id).map fun r =>
        if id = c.decisionId then (applyDecision c.actionReceiptRef (isoUtc c.now)).apply r else r) ∧
      ∀ id, (afterApply db c).item? id = (db.item? id).map fun r =>
        if id = d.reviewId then (moveItem (appliedState c.actionReceiptRef) (isoUtc c.now)).apply r
        else r := by
  cases hfind : db.decisions.find? c.decisionId with
  | none =>
    refine .inl ⟨?_, fun ⟨d, hd, _⟩ => by cases hd⟩
    simp only [afterApply, Transaction.commit, markApplied, hfind]
  | some d =>
    by_cases happrove : d.decision = .approve
    · cases hlinked : db.proposalForReview? d.reviewId with
      | some proposal =>
        refine .inl ⟨?_, ?_⟩
        · simp only [afterApply, Transaction.commit, markApplied, hfind, happrove, hlinked,
            Option.isNone_some]
          rfl
        · rintro ⟨d', hd', -, hfree⟩
          rw [← Option.some.inj hd', hlinked] at hfree
          cases hfree
      | none =>
        refine .inr ⟨d, rfl, happrove, hlinked, fun id => ?_, fun id => ?_⟩
        · simp only [afterApply, Transaction.commit, markApplied, hfind, happrove, hlinked,
            if_true, Option.isNone_none]
          show (db.decisions.updateKey _ _ _).2.find? id = _
          rw [Table.find?_updateKey]
          simp only [and_true]
        · simp only [afterApply, Transaction.commit, markApplied, hfind, happrove, hlinked,
            if_true, Option.isNone_none]
          show (db.items.updateKey _ _ _).2.find? id = _
          rw [Table.find?_updateKey]
          simp only [and_true]
          rfl
    · refine .inl ⟨?_, ?_⟩
      · simp only [afterApply, Transaction.commit, markApplied, hfind, happrove, if_false]
      · rintro ⟨d', hd', happrove', -⟩
        rw [← Option.some.inj hd'] at happrove'
        exact happrove happrove'

theorem lasts_iff_restates (db : ReviewDb) (c : ApplyCall) :
    Lasts db (afterApply db c) ↔ Restates db c := by
  rcases afterApply_cases db c with ⟨hsame, hnot⟩ | ⟨d, hd, happrove, hfree, hdecisions, hitems⟩
  · refine ⟨fun _ d hd happrove hfree => absurd ⟨d, hd, happrove, hfree⟩ hnot, fun _ => ?_⟩
    rw [hsame]
    exact ⟨fun id d ref hd href => ⟨d, hd, href⟩, fun id item hitem hstate => ⟨item, hitem, hstate⟩⟩
  · constructor
    · intro h d' hd' _ _
      obtain rfl : d = d' := Option.some.inj (hd.symm.trans hd')
      refine ⟨fun ref href => ?_, fun item hitem hstate => ?_⟩
      · obtain ⟨after, hafter, hkept⟩ := h.receipt c.decisionId d ref hd href
        rw [hdecisions, hd, Option.map_some, if_pos rfl, Option.some.injEq] at hafter
        subst hafter
        cases hreceipt : c.actionReceiptRef with
        | none => exact .inl rfl
        | some new =>
          simp only [applyDecision, hreceipt, Option.some_or] at hkept
          exact .inr hkept
      · obtain ⟨after, hafter, hkept⟩ := h.executed d.reviewId item hitem hstate
        rw [hitems, hitem, Option.map_some, if_pos rfl, Option.some.injEq] at hafter
        subst hafter
        intro hempty
        simp [moveItem, appliedState, hempty] at hkept
    · intro h
      obtain ⟨hreceipt, hexecuted⟩ := h d hd happrove hfree
      refine ⟨fun id old ref hold href => ?_, fun id item hitem hstate => ?_⟩
      · refine ⟨_, by rw [hdecisions, hold, Option.map_some], ?_⟩
        split
        · next hid =>
          subst hid
          obtain rfl : d = old := Option.some.inj (hd.symm.trans hold)
          rcases hreceipt ref href with hnone | hsome
          · simp [applyDecision, hnone, href]
          · simp [applyDecision, hsome]
        · exact href
      · refine ⟨_, by rw [hitems, hitem, Option.map_some], ?_⟩
        split
        · next hid =>
          subst hid
          simp [moveItem, appliedState, hexecuted item hitem hstate]
        · exact hstate

end Applied

/-- All along a run of applications, a call keeps what has been recorded exactly if it restates
it. -/
theorem lasts_iff_restates_run (db : ReviewDb) (calls : List ApplyCall) :
    ∀ before c rest, calls = before ++ c :: rest →
      (Lasts (afterApplies db before) (afterApplies db (before ++ [c])) ↔
        Restates (afterApplies db before) c) := by
  rintro before c rest -
  have hconcat : afterApplies db (before ++ [c]) = afterApply (afterApplies db before) c :=
    run_concat db before c
  rw [hconcat]
  exact lasts_iff_restates _ c

section Samples

/-- A review that has been approved by the decision `d1`. -/
def approvedReview : ReviewDb :=
  @dbAfter asciiText [.create
      { reviewKind := .quality, subjectType := "document", subjectId := "d1"
        subjectVersion := "1", itemHash := "aa", sensitivity := "normal" }
      { reviewId := "r1", now := ⟨0, zero_lt_maxMicros⟩ },
    .decide "r1" "aa" .approve "user:1" "checked" "key-1" none
      { decisionId := "d1", now := ⟨1000000, second_lt_maxMicros⟩ }]

def applyReview (receipt : Option Str) (second : Fin 60) : ApplyCall :=
  .ofService "d1" receipt ⟨second.val * 1000000, by unfold maxMicros; omega⟩

theorem lasts_iff_restates_run_first :
    Lasts approvedReview (afterApplies approvedReview [applyReview (some "receipt:1") 2]) := by
  refine (lasts_iff_restates_run approvedReview [applyReview (some "receipt:1") 2] []
    (applyReview (some "receipt:1") 2) [] rfl).2 ?_
  have hstart : ∀ d ∈ approvedReview.decisions.rows, d.actionReceiptRef = none ∧
      ∀ item ∈ approvedReview.items.rows, item.state ≠ .executed := by decide +kernel
  intro d hd _ _
  obtain ⟨hreceipt, hitems⟩ := hstart d (Table.mem_of_find? hd)
  refine ⟨fun ref href => ?_, fun item hitem hstate => ?_⟩
  · cases hreceipt.symm.trans href
  · exact absurd hstate (hitems item (Table.mem_of_find? hitem))

/-- Another receipt replaces the first, and a call without a receipt takes back the execution. -/
theorem repeated_application_not_idempotent :
    (¬ ∀ before c rest, [applyReview (some "receipt:1") 2, applyReview (some "receipt:2") 3] =
        before ++ c :: rest →
      Lasts (afterApplies approvedReview before) (afterApplies approvedReview (before ++ [c]))) ∧
    ¬ ∀ before c rest, [applyReview (some "receipt:1") 2, applyReview none 3] =
        before ++ c :: rest →
      Lasts (afterApplies approvedReview before) (afterApplies approvedReview (before ++ [c])) := by
  constructor
  · intro h
    have hlasts := h [applyReview (some "receipt:1") 2] (applyReview (some "receipt:2") 3) [] rfl
    have hbefore : ∃ d ∈ (afterApplies approvedReview
        [applyReview (some "receipt:1") 2]).decisions.find? (text "d1"),
        d.actionReceiptRef = some (text "receipt:1") := by decide +kernel
    have hafter : ∀ d ∈ (afterApplies approvedReview [applyReview (some "receipt:1") 2,
        applyReview (some "receipt:2") 3]).decisions.find? (text "d1"),
        d.actionReceiptRef ≠ some (text "receipt:1") := by decide +kernel
    obtain ⟨d, hd, href⟩ := hbefore
    obtain ⟨d', hd', href'⟩ := hlasts.receipt _ d _ hd href
    exact hafter d' hd' href'
  · intro h
    have hlasts := h [applyReview (some "receipt:1") 2] (applyReview none 3) [] rfl
    have hbefore : ∃ item ∈ (afterApplies approvedReview
        [applyReview (some "receipt:1") 2]).item? (text "r1"), item.state = .executed := by
      decide +kernel
    have hafter : ∀ item ∈ (afterApplies approvedReview [applyReview (some "receipt:1") 2,
        applyReview none 3]).item? (text "r1"), item.state ≠ .executed := by decide +kernel
    obtain ⟨item, hitem, hstate⟩ := hbefore
    obtain ⟨item', hitem', hstate'⟩ := hlasts.executed _ item hitem hstate
    exact hafter item' hitem' hstate'

end Samples

end HardyAI.Reviews
