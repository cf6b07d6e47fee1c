import HardyAI.Skills.DescriptorStorage

/-! The two readings of the approval conditions of a descriptor: by the main tool loop, and by the
bridge from a task to its capabilities. -/

open Foundation Foundation.Json HardyAI.Skills

namespace HardyAI.Core

section Conditions

def crossDomainNoStoreTransfer : Str := "cross_domain_no_store_transfer"

def externalRecipientsPresent : Str := "external_recipients_present"

/-- What the approval gate reads of the provenance of a call. -/
structure ProvenanceEvaluation where
  destinationValues : List (Str × Str)
  sources : List Str
  crossDomain : Bool
  requiresFormalApproval : Bool

def ProvenanceEvaluation.hasTransfer (p : ProvenanceEvaluation) : Bool :=
  p.crossDomain && p.destinationValues ≠ [] && p.sources ≠ []

/-- A list that is not empty, or a text that is not blank. -/
def namesRecipients : Json → Bool
  | .arr items => items ≠ []
  | .str s => strip s ≠ []
  | .null | .bool _ | .int _ | .float _ | .obj _ => false

/-- One of the keys names recipients. -/
def recipientsAt (keys : List Str) (arguments : List (Str × Json)) : Bool :=
  keys.any fun key => (lookup arguments key).any namesRecipients

def loopRecipientKeys : List Str := ["attendees", "guests", "invitees", "recipients"]

def bridgeRecipientKeys : List Str :=
  ["attendees", "guests", "invitees", "invitee_emails", "recipients"]

def transferNeedsApproval (provenance : Option ProvenanceEvaluation) : Bool :=
  provenance.any fun p => p.hasTransfer && p.requiresFormalApproval

/-- `MainToolLoop._conditional_approval_required`, over the conditions that are left. -/
def loopScan (arguments : List (Str × Json)) (provenance : Option ProvenanceEvaluation) :
    List Str → Bool
  | [] => false
  | condition :: conditions =>
    -- the condition on transfers decides, whatever comes after it
    if condition = crossDomainNoStoreTransfer then transferNeedsApproval provenance
    else if condition = externalRecipientsPresent && recipientsAt loopRecipientKeys arguments then
      true
    else loopScan arguments provenance conditions

def loopApprovalRequired (d : ToolDescriptor) (arguments : List (Str × Json))
    (provenance : Option ProvenanceEvaluation) : Bool :=
  loopScan arguments provenance d.approvalConditions

/-- `TaskCapabilityBridge._conditional_approval_required`. -/
def bridgeApprovalRequired (d : ToolDescriptor) (arguments : List (Str × Json)) : Bool :=
  match d.approvalRule with
  | .always => true
  | .conditional => d.approvalConditions.any fun condition =>
      condition = externalRecipientsPresent && recipientsAt bridgeRecipientKeys arguments
  | .none | .denied => false

/-- What a condition asks of a call of the main loop. -/
def Condition.holds (arguments : List (Str × Json)) (provenance : Option ProvenanceEvaluation)
    (condition : Str) : Bool :=
  condition = crossDomainNoStoreTransfer && transferNeedsApproval provenance ||
    condition = externalRecipientsPresent && recipientsAt loopRecipientKeys arguments

end Conditions

section Readings

variable {arguments : List (Str × Json)} {provenance : Option ProvenanceEvaluation}
  {conditions : List Str} {d : ToolDescriptor}

/-- The main loop asks for approval exactly where a listed condition holds, and wherever the
bridge asks for it. -/
structure Agrees (d : ToolDescriptor) (arguments : List (Str × Json))
    (provenance : Option ProvenanceEvaluation) : Prop where
  listed : loopApprovalRequired d arguments provenance = true ↔
    ∃ condition ∈ d.approvalConditions, Condition.holds arguments provenance condition = true
  bridge : bridgeApprovalRequired d arguments = true →
    loopApprovalRequired d arguments provenance = true

/-- The condition on recipients stands before any condition on transfers. -/
def RecipientsFirst (conditions : List Str) : Prop :=
  ∃ before after, conditions = before ++ externalRecipientsPresent :: after ∧
    crossDomainNoStoreTransfer ∉ before

/-- Where recipients are named for the bridge and their condition is listed, either the listed
transfer needs approval, or the main loop knows the recipients and looks for them first. -/
def RecipientsSeen (d : ToolDescriptor) (arguments : List (Str × Json))
    (provenance : Option ProvenanceEvaluation) : Prop :=
  externalRecipientsPresent ∈ d.approvalConditions →
    recipientsAt bridgeRecipientKeys arguments = true →
    crossDomainNoStoreTransfer ∈ d.approvalConditions ∧ transferNeedsApproval provenance = true ∨
    RecipientsFirst d.approvalConditions ∧ recipientsAt loopRecipientKeys arguments = true

theorem recipientsAt_bridge_of_loop (h : recipientsAt loopRecipientKeys arguments = true) :
    recipientsAt bridgeRecipientKeys arguments = true := by
  rw [recipientsAt, List.any_eq_true] at h ⊢
  obtain ⟨key, hkey, hnames⟩ := h
  refine ⟨key, ?_, hnames⟩
  revert hkey
  simp only [loopRecipientKeys, bridgeRecipientKeys, List.mem_cons, List.not_mem_nil, or_false]
  tauto

theorem external_ne_cross : externalRecipientsPresent ≠ crossDomainNoStoreTransfer := by decide

theorem recipientsFirst_cons {condition : Str} :
    RecipientsFirst (condition :: conditions) ↔ condition = externalRecipientsPresent ∨
      condition ≠ crossDomainNoStoreTransfer ∧ RecipientsFirst conditions := by
  constructor
  · rintro ⟨before, after, hsplit, hnot⟩
    cases before with
    | nil => exact .inl (List.cons.inj hsplit).1
    | cons c before =>
      obtain ⟨rfl, hrest⟩ := List.cons.inj hsplit
      rw [List.mem_cons, not_or] at hnot
      exact .inr ⟨Ne.symm hnot.1, before, after, hrest, hnot.2⟩
  · rintro (rfl | ⟨hne, before, after, rfl, hnot⟩)
    · exact ⟨[], conditions, rfl, List.not_mem_nil⟩
    · refine ⟨condition :: before, after, rfl, ?_⟩
      rw [List.mem_cons, not_or]
      exact ⟨Ne.symm hne, hnot⟩

/-- The scan in one formula: the first condition on transfers settles what is left. -/
theorem loopScan_iff : loopScan arguments provenance conditions = true ↔
    crossDomainNoStoreTransfer ∈ conditions ∧ transferNeedsApproval provenance = true ∨
      RecipientsFirst conditions ∧ recipientsAt loopRecipientKeys arguments = true := by
  induction conditions with
  | nil =>
    have hnot : ¬ RecipientsFirst [] := by
      rintro ⟨before, after, hsplit, -⟩
      simp at hsplit
    simp [loopScan, hnot]
  | cons condition conditions ih =>
    rw [loopScan, recipientsFirst_cons]
    by_cases hcross : condition = crossDomainNoStoreTransfer
    · subst hcross
      simp [external_ne_cross.symm]
    · have hmem : crossDomainNoStoreTransfer ∈ condition :: conditions ↔
          crossDomainNoStoreTransfer ∈ conditions := by
        simp [Ne.symm hcross]
      rw [if_neg hcross, hmem]
      by_cases hexternal : condition = externalRecipientsPresent
      · subst hexternal
        cases hrecipients : recipientsAt loopRecipientKeys arguments with
        | true => simp
        | false =>
          simp only [decide_true, Bool.and_false, Bool.false_eq_true, if_false, ih, hrecipients,
            and_false]
      · simp [hexternal, hcross, ih]

theorem any_holds_iff : (∃ condition ∈ conditions,
      Condition.holds arguments provenance condition = true) ↔
    crossDomainNoStoreTransfer ∈ conditions ∧ transferNeedsApproval provenance = true ∨
      externalRecipientsPresent ∈ conditions ∧ recipientsAt loopRecipientKeys arguments = true := by
  simp only [Condition.holds, Bool.or_eq_true, Bool.and_eq_true, decide_eq_true_eq]
  constructor
  · rintro ⟨condition, hmem, ⟨rfl, hneeds⟩ | ⟨rfl, hnames⟩⟩
    · exact .inl ⟨hmem, hneeds⟩
    · exact .inr ⟨hmem, hnames⟩
  · rintro (⟨hmem, hneeds⟩ | ⟨hmem, hnames⟩)
    · exact ⟨_, hmem, .inl ⟨rfl, hneeds⟩⟩
    · exact ⟨_, hmem, .inr ⟨rfl, hnames⟩⟩

theorem RecipientsFirst.mem (h : RecipientsFirst conditions) :
    externalRecipientsPresent ∈ conditions := by
  obtain ⟨before, after, rfl, -⟩ := h
  simp

theorem bridge_iff (hrule : d.approvalRule = .conditional) :
    bridgeApprovalRequired d arguments = true ↔
      externalRecipientsPresent ∈ d.approvalConditions ∧
        recipientsAt bridgeRecipientKeys arguments = true := by
  simp only [bridgeApprovalRequired, hrule, List.any_eq_true, Bool.and_eq_true, decide_eq_true_eq]
  constructor
  · rintro ⟨condition, hmem, rfl, hnames⟩
    exact ⟨hmem, hnames⟩
  · rintro ⟨hmem, hnames⟩
    exact ⟨_, hmem, rfl, hnames⟩

end Readings

/-- The two readings agree, on a descriptor with conditions, exactly where recipients that the
bridge sees are seen by the main loop or its transfer needs approval anyway. -/
theorem agrees_iff_recipientsSeen (d : ToolDescriptor) (hrule : d.approvalRule = .conditional)
    (arguments : List (Str × Json)) (provenance : Option ProvenanceEvaluation) :
    Agrees d arguments provenance ↔ RecipientsSeen d arguments provenance := by
  constructor
  · intro h hmem hnames
    exact loopScan_iff.1 (h.bridge ((bridge_iff hrule).2 ⟨hmem, hnames⟩))
  · intro h
    have hbridge : bridgeApprovalRequired d arguments = true →
        loopApprovalRequired d arguments provenance = true := by
      intro hrequired
      obtain ⟨hmem, hnames⟩ := (bridge_iff hrule).1 hrequired
      exact loopScan_iff.2 (h hmem hnames)
    refine ⟨?_, hbridge⟩
    rw [any_holds_iff]
    constructor
    · intro hloop
      rcases loopScan_iff.1 hloop with htransfer | ⟨hfirst, hnames⟩
      · exact .inl htransfer
      · exact .inr ⟨hfirst.mem, hnames⟩
    · rintro (htransfer | ⟨hmem, hnames⟩)
      · exact loopScan_iff.2 (.inl htransfer)
      · exact hbridge ((bridge_iff hrule).2 ⟨hmem, recipientsAt_bridge_of_loop hnames⟩)

section Samples

/-- A tool that invites guests, with its approval conditions in the order in which they are
listed. -/
def inviteTool (conditions : List Str) : ToolDescriptor where
  toolId := "calendar.create_event"
  skillId := "skill.calendar"
  contractVersion := 1
  purpose := "Create an event."
  inputSchema := .obj [("type", .str "object"),
    ("properties", .obj [("guests", .obj [("type", .str "array"), ("maxItems", .int 10),
      ("items", .obj [("type", .str "string"), ("maxLength", .int 80)])])]),
    ("required", .arr []), ("additionalProperties", .bool false)]
  observationSchema := .obj [("type", .str "object"), ("properties", .obj []),
    ("required", .arr []), ("additionalProperties", .bool false)]
  effect := .externalWrite
  approvalRule := .conditional
  approvalConditions := conditions
  sensitivity := .privateData
  persistence := .redacted
  idempotency := .required
  effectCardinality := .single
  transferableObservationFields := []
  runtimeDependencies := []
  timeoutSeconds := 30
  maxResultItems := 1
  maxObservationChars := 2000
  legacyIntents := []
  interactive := true
  toolId_valid := isToolId_createEvent
  skillId_valid := isSkillId_calendar
  contractVersion_valid := firstVersion_valid

def guestArguments : List (Str × Json) := [("guests", .arr [.str "ann@example.com"])]

theorem agrees_iff_recipientsSeen_guests :
    Agrees (inviteTool [externalRecipientsPresent]) guestArguments none := by
  refine (agrees_iff_recipientsSeen (inviteTool [externalRecipientsPresent]) rfl guestArguments
    none).2 fun _ _ => .inr ⟨?_, by decide⟩
  exact ⟨[], [], rfl, List.not_mem_nil⟩

/-- With the condition on transfers listed first, guests are invited without approval. -/
theorem transfer_condition_hides_recipients :
    ¬∀ (a : DescriptorArgs) (d : ToolDescriptor), @postInit asciiText a = .ok d →
      d.approvalRule = .conditional → ∀ arguments provenance, Agrees d arguments provenance := by
  intro h
  have hagrees := h (inviteTool [crossDomainNoStoreTransfer, externalRecipientsPresent]).storedArgs
    (inviteTool [crossDomainNoStoreTransfer, externalRecipientsPresent]) (by decide +kernel) rfl
    guestArguments none
  have hbridge : bridgeApprovalRequired
      (inviteTool [crossDomainNoStoreTransfer, externalRecipientsPresent]) guestArguments = true := by
    decide
  exact absurd (hagrees.bridge hbridge) (by decide)

end Samples

end HardyAI.Core
