import HardyAI.Tickets.Repository

/-! The policy that decides whether a repair may be executed without a person. -/

open Foundation Foundation.Json HardyAI.Jobs

namespace HardyAI.Tickets

structure RemediationPolicyDecision where
  allowed : Bool
  reason : Str
  repair : Option ReviewRepair := none
  deriving DecidableEq

/-- `_AUTO_ALLOWED`. -/
def autoAllowed : List Str := [text "lists.create_list", text "lists.add_item"]

variable [PythonText]

/-- The stripped texts of the items that have one. -/
def presentItems : List Json → Except PyError (List Str)
  | [] => .ok []
  | item :: rest => do
    let stripped := strip (← pyStr item)
    let items ← presentItems rest
    .ok (if stripped = [] then items else stripped :: items)

/-- `_derive_safe_repair`. -/
def deriveSafeRepair (ticket : Ticket) (expectations : List Expectation) :
    Except PyError (Option ReviewRepair) :=
  match expectations with
  | [expectation] => do
    let listName ← textField expectation.resourceLocator "list_name"
    if ticket.intent = text "lists.create_list" ∧
        lookup expectation.expectedState "exists" = some (.bool true) ∧ listName ≠ [] then
      .ok (some ⟨ticket.intent, [("list_name", .str listName)],
        "Trusted source evidence shows the requested list is missing."⟩)
    else if ticket.intent = text "lists.add_item" ∧ listName ≠ [] then
      match lookup expectation.expectedState "items_present" with
      | some (.arr present) => do
        let items ← presentItems present
        .ok (if items = [] then none else some ⟨ticket.intent,
          [("list_name", .str listName), ("item_text", .str (join ", " items))],
          "Trusted source evidence shows requested list items are missing."⟩)
      | _ => .ok none
    else .ok none
  | _ => .ok none

/-- The checks on a repair that there is. -/
def evaluateRepair (ticket : Ticket) (repair : ReviewRepair) :
    Except PyError RemediationPolicyDecision :=
  if !autoAllowed.contains repair.capability then
    .ok ⟨false, "capability_not_auto_allowed", some repair⟩
  else if repair.capability ≠ ticket.intent then
    .ok ⟨false, "repair_capability_differs_from_original", some repair⟩
  else do
    let listName ← textField repair.entities "list_name"
    if listName = [] then .ok ⟨false, "missing_list_name", some repair⟩
    else if repair.capability = text "lists.add_item" then do
      let itemText ← textField repair.entities "item_text"
      if itemText = [] then .ok ⟨false, "missing_item_text", some repair⟩
      else .ok ⟨true, "allowlisted_reversible_repair", some repair⟩
    else .ok ⟨true, "allowlisted_reversible_repair", some repair⟩

/-- The repair that was proposed, or else a derived one. -/
def chosenRepair (ticket : Ticket) (proposed : Option ReviewRepair)
    (expectations : List Expectation) : Except PyError (Option ReviewRepair) :=
  match proposed with
  | some repair => .ok (some repair)
  | none => deriveSafeRepair ticket expectations

/-- `RemediationPolicy.evaluate`. -/
def evaluate (maxGeneration : Int) (ticket : Ticket) (proposed : Option ReviewRepair)
    (expectations : List Expectation) : Except PyError RemediationPolicyDecision :=
  if max 0 maxGeneration ≤ ticket.remediationGeneration then
    .ok ⟨false, "remediation_generation_cap_reached", none⟩
  else do
    match ← chosenRepair ticket proposed expectations with
    | none => .ok ⟨false, "no_typed_repair_available", none⟩
    | some repair => evaluateRepair ticket repair

section Allowed

variable {maxGeneration : Int} {ticket : Ticket} {proposed : Option ReviewRepair}
  {expectations : List Expectation} {decision : RemediationPolicyDecision}

theorem evaluateRepair_allowed {repair : ReviewRepair}
    (h : evaluateRepair ticket repair = .ok decision) (hallowed : decision.allowed = true) :
    decision.repair = some repair ∧ repair.capability ∈ autoAllowed ∧
      repair.capability = ticket.intent := by
  unfold evaluateRepair at h
  split at h
  · cases h
    cases hallowed
  · next hcapability =>
    split at h
    · cases h
      cases hallowed
    · next hintent =>
      simp only [bind_eq_ok] at h
      obtain ⟨listName, -, h⟩ := h
      have hmem : repair.capability ∈ autoAllowed := by simpa using hcapability
      refine ⟨?_, hmem, not_not.1 hintent⟩
      split at h
      · cases h
        cases hallowed
      · split at h
        · simp only [bind_eq_ok] at h
          obtain ⟨itemText, -, h⟩ := h
          split_ifs at h
          · cases h
            cases hallowed
          · cases h
            rfl
        · cases h
          rfl

/-- An allowed repair is the ticket's own allowlisted intent, and the cap is not reached. -/
theorem evaluate_allowed (h : evaluate maxGeneration ticket proposed expectations = .ok decision)
    (hallowed : decision.allowed = true) :
    ticket.remediationGeneration < max 0 maxGeneration ∧ ∃ repair, decision.repair = some repair ∧
      repair.capability ∈ autoAllowed ∧ repair.capability = ticket.intent := by
  unfold evaluate at h
  split_ifs at h with hcap
  · cases h
    cases hallowed
  · simp only [bind_eq_ok] at h
    obtain ⟨repair?, -, h⟩ := h
    refine ⟨not_le.1 hcap, ?_⟩
    cases repair? with
    | none =>
      cases h
      cases hallowed
    | some repair =>
      obtain ⟨hrepair, hmem, hsame⟩ := evaluateRepair_allowed h hallowed
      exact ⟨repair, hrepair, hmem, hsame⟩

end Allowed

end HardyAI.Tickets
