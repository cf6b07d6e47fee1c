import HardyAI.Tickets.RepositoryCases
import HardyAI.Tickets.ReviewWorker

/-! The reducer and the completion of stored receipts end with no exception but those that the
review worker catches. -/

open Foundation Foundation.Json HardyAI.Jobs

namespace HardyAI.Tickets

/-- The computation raises only what the worker catches. -/
abbrev Caught {α : Type} (x : Except PyError α) : Prop := Raises (fun e => caught e = true) x

theorem caught_require (holds : Bool) (message : String) :
    Caught (require holds (.valueError message)) := raises_require rfl

variable [PythonText]

section Values

theorem caught_dump (ensureAscii : Bool) (j : Json) : Caught (dump ensureAscii j) := by
  unfold dump
  split
  · exact raises_error rfl
  · exact raises_ok

omit [PythonText] in
theorem caught_utf8 (s : Str) : Caught (utf8 s) := by
  unfold utf8
  split
  · exact raises_ok
  · exact raises_error rfl

theorem caught_contentHash (j : Json) : Caught (contentHash j) := by
  refine Raises.bind ?_ fun s _ => (caught_utf8 s).bind fun _ _ => raises_ok
  unfold hashedText
  split
  · exact raises_ok
  · exact caught_dump ..

theorem caught_pyStr (j : Json) : Caught (pyStr j) := by
  cases j with
  | int | arr | obj =>
    simp only [pyStr]
    split
    · exact raises_error rfl
    · exact raises_ok
  | bool b => cases b <;> exact raises_ok
  | _ => exact raises_ok

theorem caught_textOr (value : Option Json) (default : Str) : Caught (textOr value default) := by
  unfold textOr
  split
  · split
    · exact caught_pyStr _
    · exact raises_ok
  · exact raises_ok

theorem caught_strippedText (value : Option Json) : Caught (strippedText value) :=
  (caught_textOr value []).map

theorem caught_foldedText (value : Option Json) : Caught (foldedText value) :=
  (caught_strippedText value).map

theorem caught_requireHash (value : Option Json) (code : String) :
    Caught (requireHash value code) :=
  (caught_strippedText value).bind fun _ _ => (caught_require ..).bind fun _ _ => raises_ok

theorem caught_requireId (value : Option Json) (code : String) : Caught (requireId value code) :=
  (caught_strippedText value).bind fun _ _ => (caught_require ..).bind fun _ _ => raises_ok

omit [PythonText] in
theorem caught_objectFields (value : Json) (code : String) : Caught (objectFields value code) := by
  unfold objectFields
  split
  · exact raises_ok
  · exact raises_error rfl

omit [PythonText] in
theorem caught_requireSome {α : Type} (value : Option α) (code : String) :
    Caught (requireSome value code) := by
  unfold requireSome
  split
  · exact raises_ok
  · exact raises_error rfl

omit [PythonText] in
theorem caught_requireVersion (value : Option Json) (code : String) :
    Caught (requireVersion value code) := by
  unfold requireVersion
  split
  · split
    · exact raises_ok
    · exact raises_error rfl
  · exact raises_error rfl

end Values

section Manifests

theorem caught_normalizeChild (seen : List Str) (position : Nat) (raw : Json) :
    Caught (normalizeChild seen position raw) := by
  unfold normalizeChild
  refine (caught_objectFields ..).bind fun fields _ => (caught_require ..).bind fun _ _ => ?_
  refine (caught_require ..).bind fun _ _ => (caught_requireId ..).bind fun childId _ => ?_
  refine (caught_require ..).bind fun _ _ => (caught_requireHash ..).bind fun _ _ => ?_
  exact (caught_requireHash ..).bind fun _ _ => raises_ok

theorem caught_normalizeChildren (seen : List Str) (position : Nat) (raws : List Json) :
    Caught (normalizeChildren seen position raws) := by
  induction raws generalizing seen position with
  | nil => exact raises_ok
  | cons raw rest ih =>
    exact (caught_normalizeChild ..).bind fun child _ => (ih ..).bind fun _ _ => raises_ok

theorem caught_normalizeHeader (fields : List (Str × Json)) : Caught (normalizeHeader fields) := by
  unfold normalizeHeader
  refine (caught_require ..).bind fun _ _ => (caught_require ..).bind fun _ _ => ?_
  refine (caught_foldedText _).bind fun _ _ => (caught_requireSome ..).bind fun _ _ => ?_
  refine (caught_foldedText _).bind fun _ _ => (caught_foldedText _).bind fun _ _ => ?_
  refine (caught_requireSome ..).bind fun _ _ => (caught_requireSome ..).bind fun _ _ => ?_
  exact (caught_require ..).bind fun _ _ => raises_ok

omit [PythonText] in
theorem caught_rawChildren (fields : List (Str × Json)) : Caught (rawChildren fields) := by
  unfold rawChildren
  split
  · exact raises_ok
  · exact raises_error rfl

theorem caught_normalizeRecoveryHash (value : Option Json) :
    Caught (normalizeRecoveryHash value) := by
  unfold normalizeRecoveryHash
  split
  · exact raises_ok
  · exact raises_ok
  · exact (caught_requireHash ..).map

theorem caught_readManifest (fields : List (Str × Json)) : Caught (readManifest fields) := by
  unfold readManifest
  refine (caught_normalizeHeader _).bind fun header _ => (caught_rawChildren _).bind fun raws _ => ?_
  refine (caught_normalizeChildren ..).bind fun children _ => (caught_require ..).bind fun _ _ => ?_
  refine (caught_require ..).bind fun _ _ => (caught_normalizeRecoveryHash _).bind fun _ _ => ?_
  refine (caught_requireVersion ..).bind fun _ _ => (caught_requireVersion ..).bind fun _ _ => ?_
  refine (caught_requireId ..).bind fun _ _ => (caught_requireHash ..).bind fun _ _ => ?_
  refine (caught_requireId ..).bind fun _ _ => (caught_requireId ..).bind fun _ _ => ?_
  exact (caught_requireHash ..).bind fun _ _ => (caught_requireHash ..).bind fun _ _ => raises_ok

theorem caught_validatePersisted (j : Json) : ∀ depth, Caught (validatePersisted depth j) := by
  induction j using Json.induct with
  | arr items ih =>
    rintro (_ | depth)
    · exact raises_error rfl
    · simp only [validatePersisted]
      split
      · exact raises_error rfl
      · next hbound =>
        clear hbound
        induction items with
        | nil => exact raises_ok
        | cons x xs ihxs =>
          refine (ih x List.mem_cons_self depth).bind fun _ _ => ?_
          exact ihxs fun y hy => ih y (List.mem_cons_of_mem _ hy)
  | obj fields ih =>
    rintro (_ | depth)
    · exact raises_error rfl
    · simp only [validatePersisted]
      induction fields with
      | nil => exact raises_ok
      | cons p rest ihrest =>
        refine (caught_require ..).bind fun _ _ => ?_
        refine (ih p List.mem_cons_self depth).bind fun _ _ => ?_
        exact ihrest fun q hq => ih q (List.mem_cons_of_mem _ hq)
  | str s =>
    rintro (_ | depth)
    · exact raises_error rfl
    · exact caught_require ..
  | _ =>
    rintro (_ | depth)
    · exact raises_error rfl
    · exact raises_ok

theorem caught_boundedControlPayload (payload : List (Str × Json)) :
    Caught (boundedControlPayload payload) := by
  unfold boundedControlPayload
  refine (caught_validatePersisted ..).bind fun _ _ => (caught_dump ..).bind fun _ _ => ?_
  exact (caught_utf8 _).bind fun _ _ => caught_require ..

theorem caught_normalizeExecutionManifest (j : Json) : Caught (normalizeExecutionManifest j) := by
  cases j with
  | obj fields =>
    refine (caught_readManifest fields).bind fun manifest _ => ?_
    exact (caught_boundedControlPayload _).bind fun _ _ => raises_ok
  | _ => exact raises_error rfl

end Manifests

section Reducer

omit [PythonText] in
theorem caught_bindChildren (m : ExecutionManifest) (hash : Str) (children : List ManifestChild)
    (expected : Dict Binding) : Caught (bindChildren m hash children expected) := by
  induction children generalizing expected with
  | nil => exact raises_ok
  | cons child rest ih => exact (caught_require ..).bind fun _ _ => ih _

theorem caught_expectedChildren (manifests : List TicketEntry) (expected : Dict Binding) :
    Caught (expectedChildren manifests expected) := by
  induction manifests generalizing expected with
  | nil => exact raises_ok
  | cons entry rest ih =>
    refine (caught_normalizeExecutionManifest _).bind fun manifest _ => ?_
    refine (caught_contentHash _).bind fun hash _ => ?_
    exact (caught_bindChildren ..).bind fun _ _ => ih _

theorem caught_readOutcome (expected : Dict Binding) (payload : Json) :
    Caught (readOutcome expected payload) := by
  unfold readOutcome
  refine (caught_objectFields ..).bind fun fields _ => (caught_require ..).bind fun _ _ => ?_
  refine (caught_textOr ..).bind fun childId _ => (caught_textOr ..).bind fun stateText _ => ?_
  split
  · exact (caught_require ..).bind fun _ _ => raises_ok
  · exact raises_error rfl

omit [PythonText] in
theorem caught_setOutcome (outcomes : Dict ChildState) (childId : Str) (state : ChildState) :
    Caught (setOutcome outcomes childId state) := by
  unfold setOutcome
  split
  · exact raises_ok
  · split
    · exact raises_ok
    · exact raises_error rfl

theorem caught_outcomesByChild (expected : Dict Binding) (entries : List TicketEntry)
    (outcomes : Dict ChildState) : Caught (outcomesByChild expected entries outcomes) := by
  induction entries generalizing outcomes with
  | nil => exact raises_ok
  | cons entry rest ih =>
    rw [outcomesByChild]
    split
    · exact ih _
    · refine (caught_readOutcome ..).bind fun p _ => ?_
      exact (caught_setOutcome ..).bind fun _ _ => ih _

/-- `reduce_ticket_effects` raises nothing else. -/
theorem caught_reduceEffects (manifests entries : List TicketEntry) (receipts : List ReceiptRow) :
    Caught (reduceEffects manifests entries receipts) := by
  unfold reduceEffects
  split
  · exact raises_ok
  · refine (caught_expectedChildren ..).bind fun expected _ => ?_
    refine (caught_outcomesByChild ..).bind fun outcomes _ => ?_
    exact (caught_require ..).bind fun _ _ => raises_ok

end Reducer

section Completion

variable {db : TicketDb} {now : Instant}

theorem caught_appendEntryCursor {a : EntryArgs}
    (hticket : (db.tickets.find? a.ticketId).isSome = true)
    (hfresh : ∀ e ∈ db.entries.rows, e.entryId ≠ a.entryId) :
    Caught (appendEntryCursor a now db) := by
  unfold appendEntryCursor
  refine (caught_contentHash _).bind fun hash _ => ?_
  split
  · exact (caught_require ..).bind fun _ _ => raises_ok
  · next hnone =>
    rw [hticket]
    refine Raises.bind raises_ok fun _ _ => ?_
    split
    · next hinsert =>
      refine absurd hinsert (Table.insertApart?_ne_none hnone fun old hold => ?_)
      exact decide_eq_false (hfresh old hold)
    · exact raises_ok

theorem caught_createExpectationCursor {a : ExpectationArgs}
    (hticket : (db.tickets.find? a.ticketId).isSome = true)
    (hreceipt : (db.receipts.find? a.operationId).isSome = true)
    (hfresh : ∀ e ∈ db.expectations.rows, e.expectationId ≠ a.expectationId) :
    Caught (createExpectationCursor a now db) := by
  unfold createExpectationCursor
  refine (caught_contentHash _).bind fun hash _ => (caught_dump ..).bind fun _ _ => ?_
  split
  · exact (caught_require ..).bind fun _ _ => raises_ok
  · next hnone =>
    rw [hticket, hreceipt]
    refine Raises.bind raises_ok fun _ _ => ?_
    split
    · next hinsert =>
      refine absurd hinsert (Table.insertApart?_ne_none hnone fun old hold => ?_)
      exact decide_eq_false (hfresh old hold)
    · exact raises_ok

/-- A receipt whose operation has a row is compared with it, and nothing is inserted. -/
theorem caught_recordOperationReceiptCursor {ticketId : Str} {r : OperationReceipt}
    (hrow : ∃ row ∈ db.receipts.rows, row.operationId = r.operationId) :
    Caught (recordOperationReceiptCursor ticketId r db) := by
  unfold recordOperationReceiptCursor
  refine Raises.bind ?_ fun _ _ => ?_
  · refine (caught_dump ..).bind fun _ _ => (caught_dump ..).bind fun _ _ => ?_
    exact (caught_dump ..).bind fun _ _ => (caught_dump ..).bind fun _ _ => raises_ok
  · dsimp only
    split
    · exact (caught_require ..).bind fun _ _ => raises_ok
    · next hnone =>
      obtain ⟨row, hmem, hsame⟩ := hrow
      have hnot := List.filter_eq_nil_iff.1 hnone row hmem
      simp [hsame] at hnot

/-- The completion of a stored receipt of a ticket that exists, with new identifiers. -/
theorem caught_recordOperationCompletionAtomic {a : CompletionArgs}
    (hticket : (db.tickets.find? a.ticketId).isSome = true)
    (hrow : ∃ row ∈ db.receipts.rows, row.operationId = a.receipt.operationId)
    (hexpectation : ∀ e ∈ db.expectations.rows, e.expectationId ≠ a.expectationId)
    (hentry : ∀ e ∈ db.entries.rows, e.entryId ≠ a.entryId) :
    Caught (recordOperationCompletionAtomic a now db) := by
  unfold recordOperationCompletionAtomic recordEffect
  refine (caught_recordOperationReceiptCursor hrow).bind fun p hp => ?_
  have hdb₁ : p.2 = db := by
    cases recordOperationReceiptCursor_spec hp with
    | replayed hfilter hmatches hdb => exact hdb
    | recorded hnew =>
      obtain ⟨row, hmem, hsame⟩ := hrow
      exact absurd hsame (hnew row hmem).2
  have hreceipt : (db.receipts.find? a.receipt.operationId).isSome = true := by
    obtain ⟨row, hmem, hsame⟩ := hrow
    rw [← hsame, Option.isSome_iff_exists]
    exact ⟨row, Table.find?_of_mem hmem⟩
  refine Raises.bind (caught_createExpectationCursor (by rw [hdb₁]; exact hticket)
    (by rw [hdb₁]; exact hreceipt) (by rw [hdb₁]; exact hexpectation)) fun q hq => ?_
  obtain ⟨expectations, hdb₂⟩ := (createExpectationCursor_spec hq).frame
  refine Raises.bind (caught_appendEntryCursor (by rw [hdb₂, hdb₁]; exact hticket)
    (by rw [hdb₂, hdb₁]; exact hentry)) fun _ _ => raises_ok

end Completion

end HardyAI.Tickets
