import HardyAI.Skills.ToolContracts

/-! The identity of an operation: normalized arguments and the identifiers derived from them. -/

open Foundation Foundation.Json

namespace HardyAI.Skills

section Freeze

mutual

/-- `_freeze_json`, which refuses the numbers that JSON does not have. -/
def freezeJson : Json → Except PyError Json
  | .null => .ok .null
  | .bool b => .ok (.bool b)
  | .int n => .ok (.int n)
  | .float bits =>
    if finite bits then .ok (.float bits) else .error (.toolContractError "json_number_non_finite")
  | .str s => .ok (.str s)
  | .arr items => (freezeItems items).map .arr
  | .obj fields => (freezeFields fields).map .obj

def freezeItems : List Json → Except PyError (List Json)
  | [] => .ok []
  | x :: xs => do
    let y ← freezeJson x
    let ys ← freezeItems xs
    .ok (y :: ys)

def freezeFields : List (Str × Json) → Except PyError (List (Str × Json))
  | [] => .ok []
  | (k, x) :: xs => do
    let y ← freezeJson x
    let ys ← freezeFields xs
    .ok ((k, y) :: ys)

end

mutual

/-- What can be frozen is frozen as it is. -/
theorem freezeJson_eq_ok {j j' : Json} (h : freezeJson j = .ok j') : j' = j := by
  cases j with
  | float bits =>
    rw [freezeJson] at h
    split at h
    · exact (Except.ok.inj h).symm
    · simp at h
  | arr items =>
    rw [freezeJson] at h
    cases hitems : freezeItems items with
    | error e => simp [hitems, Except.map] at h
    | ok ys =>
      obtain rfl := freezeItems_eq_ok hitems
      simpa [hitems, Except.map] using h.symm
  | obj fields =>
    rw [freezeJson] at h
    cases hfields : freezeFields fields with
    | error e => simp [hfields, Except.map] at h
    | ok ys =>
      obtain rfl := freezeFields_eq_ok hfields
      simpa [hfields, Except.map] using h.symm
  | _ => exact (Except.ok.inj h).symm

theorem freezeItems_eq_ok {items ys : List Json} (h : freezeItems items = .ok ys) : ys = items := by
  cases items with
  | nil => exact (Except.ok.inj h).symm
  | cons x xs =>
    simp only [freezeItems, bind_eq_ok, Except.ok.injEq] at h
    obtain ⟨y, hy, zs, hzs, rfl⟩ := h
    rw [freezeJson_eq_ok hy, freezeItems_eq_ok hzs]

theorem freezeFields_eq_ok {fields ys : List (Str × Json)} (h : freezeFields fields = .ok ys) :
    ys = fields := by
  cases fields with
  | nil => exact (Except.ok.inj h).symm
  | cons p xs =>
    obtain ⟨k, x⟩ := p
    simp only [freezeFields, bind_eq_ok, Except.ok.injEq] at h
    obtain ⟨y, hy, zs, hzs, rfl⟩ := h
    rw [freezeJson_eq_ok hy, freezeFields_eq_ok hzs]

end

end Freeze

section Identity

/-- `_EMAIL_UNORDERED_TARGET_TOOLS`. -/
def emailUnorderedTargetTools : List Str :=
  ["email.apply_managed_category_label", "email.apply_labels", "email.archive_messages",
    "email.mark_read_complete", "email.move_to_spam", "email.remove_labels",
    "email.restore_to_inbox", "email.set_read_state"]

variable [PythonText]

/-- The targets of a call in an order of their own. -/
def normalizeTargets (items : List Json) : Except PyError (List Str) := do
  let targets ← items.mapM fun item => (textOr (some item) []).map strip
  require (targets.all fun t => t ≠ [] && t.length ≤ 255)
    (.toolContractError "email_message_ref_invalid")
  require targets.Nodup (.toolContractError "email_message_ref_duplicate")
  .ok (targets.insertionSort (· ≤ ·))

def normalizeIdentityArguments (toolId : Str) (arguments : List (Str × Json)) :
    Except PyError (List (Str × Json)) := do
  let normalized ← freezeFields arguments
  if PythonText.casefold (strip toolId) ∈ emailUnorderedTargetTools then
    match lookup normalized "message_refs" with
    | some (.arr (item :: items)) =>
      let targets ← normalizeTargets (item :: items)
      .ok (setField normalized "message_refs" (.arr (targets.map .str)))
    | _ => .error (.toolContractError "email_message_refs_invalid")
  else .ok normalized

/-- `hashlib.sha256(text.encode("utf-8")).hexdigest()`. -/
def digest (s : Str) : Except PyError Str := do
  let bytes ← utf8 s
  .ok (Sha256.hexdigest bytes)

def newline : CodePoint := 0x0A

structure OperationIdentity where
  operationId : Str
  argumentsHash : Str
  arguments : List (Str × Json)

/-- `tool_operation_id`. -/
def toolOperationId (rootRequestId toolId : Str) (contractVersion callOrdinal : Int)
    (arguments : List (Str × Json)) : Except PyError OperationIdentity := do
  let root := strip rootRequestId
  let normalizedToolId := PythonText.casefold (strip toolId)
  require (root ≠ [] ∧ root.length ≤ 255 ∧ newline ∉ root)
    (.toolContractError "root_request_id_invalid")
  require (isToolId normalizedToolId) (.toolContractError "tool_id_invalid")
  require (1 ≤ contractVersion) (.toolContractError "contract_version_invalid")
  require (1 ≤ callOrdinal) (.toolContractError "call_ordinal_invalid")
  let normalized ← normalizeIdentityArguments normalizedToolId arguments
  let argumentsHash ← sha256 (.obj normalized)
  let operation ← digest (root ++ text "\n" ++ normalizedToolId ++ text "\n" ++
    intText contractVersion ++ text "\n" ++ intText callOrdinal ++ text "\n" ++ argumentsHash)
  .ok ⟨text "toolop_v1_" ++ operation, argumentsHash, normalized⟩

/-- The text of a SHA-256 digest. -/
def isHash (s : Str) : Bool :=
  s.length = 64 && s.all fun c => isDecimal c || (0x61 ≤ c.val && c.val ≤ 0x66)

/-- `_OPAQUE_REF_RE`. -/
def isOpaqueRef : Str → Bool
  | [] => false
  | c :: cs => isAlphanumeric c && cs.length ≤ 255 && cs.all fun x =>
      isAlphanumeric x || (text "_.:/-").contains x

/-- `tool_child_operation_id`. -/
def toolChildOperationId (operationId : Str) (childIndex : Nat) (targetRef : Str)
    (childArguments : List (Str × Json)) : Except PyError (Str × Str) := do
  let parent := strip operationId
  let target := strip targetRef
  require (startsWith parent "toolop_v1_" && isHash (parent.drop 10))
    (.toolContractError "parent_operation_id_invalid")
  require (1 ≤ childIndex) (.toolContractError "child_index_invalid")
  require (isOpaqueRef target) (.toolContractError "canonical_target_ref_invalid")
  let argumentsHash ← sha256 (.obj childArguments)
  let material ← utf8 (join "\n" [parent, natText childIndex, target, argumentsHash])
  .ok (text "toolchild_v1_" ++ Sha256.hexdigest material, argumentsHash)

/-- Arguments of other tools are their own normal form. -/
theorem normalizeIdentityArguments_eq {toolId : Str} {arguments normalized : List (Str × Json)}
    (htool : PythonText.casefold (strip toolId) ∉ emailUnorderedTargetTools)
    (h : normalizeIdentityArguments toolId arguments = .ok normalized) :
    normalized = arguments := by
  simp only [normalizeIdentityArguments, bind_eq_ok, if_neg htool, Except.ok.injEq] at h
  obtain ⟨frozen, hfrozen, rfl⟩ := h
  exact freezeFields_eq_ok hfrozen

end Identity

end HardyAI.Skills
