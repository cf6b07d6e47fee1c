import HardyAI.Core.MainToolLoop
import HardyAI.Core.TransferFields

/-! Where the arguments of a call come from: from the text of the request, or by a claim of the
model from the request or from an observation. -/

open Foundation Foundation.Json HardyAI.Skills

namespace HardyAI.Core.Provenance

section Pointers

/-- `s.replace(c, word)`. -/
def replaceChar (c : CodePoint) (word s : Str) : Str := s.flatMap fun x => if x = c then word else [x]

def encodeSegment (segment : Str) : Str := replaceChar slash "~1" (replaceChar tilde "~0" segment)

/-- The pointer of a path, as a claim is stored with it. -/
def pointerText (path : List Str) : Str := path.flatMap fun segment => slash :: encodeSegment segment

/-- `_pointer_covers`. -/
def pointerCovers (ancestor pointer : Str) : Bool :=
  pointer = ancestor || startsWith pointer (ancestor ++ [slash])

mutual

/-- `_leaf_pointers`. An empty container is a leaf. -/
def leafPointers (pointer : Str) : Json → List (Str × Json)
  | .obj [] => [(pointer, .obj [])]
  | .obj (field :: fields) => leafFields pointer (field :: fields)
  | .arr [] => [(pointer, .arr [])]
  | .arr (item :: items) => leafItems pointer 0 (item :: items)
  | .null => [(pointer, .null)]
  | .bool b => [(pointer, .bool b)]
  | .int n => [(pointer, .int n)]
  | .float bits => [(pointer, .float bits)]
  | .str s => [(pointer, .str s)]

def leafFields (pointer : Str) : List (Str × Json) → List (Str × Json)
  | [] => []
  | (key, child) :: fields =>
    leafPointers (pointer ++ slash :: encodeSegment key) child ++ leafFields pointer fields

def leafItems (pointer : Str) (index : Nat) : List Json → List (Str × Json)
  | [] => []
  | child :: items =>
    leafPointers (pointer ++ slash :: natText index) child ++ leafItems pointer (index + 1) items

end

variable [PythonText]

def pointerValue (value : Json) (pointer : Str) : Except PyError (Option Json) :=
  resolve value (pointerSegments pointer)

/-- What one segment of a transfer pointer leads to: a star to all items of a list. -/
def transferMember (segment : Str) (item : Json) : Except PyError (List Json) :=
  match item with
  | .arr items => if segment = star then .ok items else (member item segment).map Option.toList
  | _ => (member item segment).map Option.toList

def transferFrom (current : List Json) : List Str → Except PyError (Option (List Json))
  | [] => .ok (some current)
  | segment :: segments => do
    let following ← current.mapM (transferMember segment)
    if following.flatten = [] then .ok none else transferFrom following.flatten segments

/-- `_transfer_pointer_value`. -/
def transferPointerValue (value : Json) (pointer : Str) : Except PyError (Option Json) :=
  if star ∈ pointerSegments pointer then
    (transferFrom [value] (pointerSegments pointer)).map (Option.map .arr)
  else pointerValue value pointer

end Pointers

section Values

def occursIn (part s : Str) : Bool := s.tails.any part.isPrefixOf

/-- `number_words.get(n)`. -/
def numberWord (n : Int) : Option Str :=
  if n < 0 then none
  else [text "zero", "one", "two", "three", "four", "five", "six", "seven", "eight", "nine", "ten",
    "eleven", "twelve"][n.toNat]?

def asItems : Json → List Json
  | .arr items => items
  | value => [value]

/-- `isinstance(value, (str, int, bool))`. -/
def isTransferScalar : Json → Bool
  | .str _ | .int _ | .bool _ => true
  | .null | .float _ | .arr _ | .obj _ => false

variable [PythonText]

/-- `_normalize_request_text`. -/
def normalizeRequestText (value : Str) : Str := join " " (splitWords (PythonText.casefold value))

mutual

/-- `_request_value_appears`. -/
def requestValueAppears (normalizedText : Str) : Json → Except PyError Bool
  | .str s =>
    let token := normalizeRequestText s
    .ok (token ≠ [] && occursIn token normalizedText)
  | .bool b => .ok (text (if b then "true" else "false") ∈ splitWords normalizedText)
  | .null => .ok (text "null" ∈ splitWords normalizedText)
  | .int n => do
    let token := PythonText.casefold (← pyStr (.int n))
    .ok (token ≠ [] && (token ∈ splitWords normalizedText ||
      (numberWord n).any fun word => word ∈ splitWords normalizedText))
  | .float bits =>
    let token := PythonText.casefold (PythonText.floatRepr bits)
    .ok (token ≠ [] && occursIn token normalizedText)
  | .arr [] => .ok false
  | .arr (item :: items) => itemsAppear normalizedText (item :: items)
  | .obj [] => .ok false
  | .obj (field :: fields) => fieldsAppear normalizedText (field :: fields)

def itemsAppear (normalizedText : Str) : List Json → Except PyError Bool
  | [] => .ok true
  | item :: items => do
    if ← requestValueAppears normalizedText item then itemsAppear normalizedText items
    else .ok false

def fieldsAppear (normalizedText : Str) : List (Str × Json) → Except PyError Bool
  | [] => .ok true
  | (_, item) :: fields => do
    if ← requestValueAppears normalizedText item then fieldsAppear normalizedText fields
    else .ok false

end

/-- The values that a star has collected, behind the comparison as a whole. -/
def collectedMatch (source destination : List Json) : Except PyError Bool :=
  if source = [] || destination = [] || source.length < destination.length ||
      !source.all isTransferScalar || !destination.all isTransferScalar then .ok false
  else do
    let sourceCanonical ← source.mapM canonicalJson
    let destinationCanonical ← destination.mapM canonicalJson
    .ok (destinationCanonical.Nodup && destinationCanonical.all (· ∈ sourceCanonical))

/-- `_transfer_values_match`. -/
def transferValuesMatch (source destination : Json) (sourcePointer : Str) :
    Except PyError Bool := do
  let sourceText ← canonicalJson source
  let destinationText ← canonicalJson destination
  if sourceText = destinationText then .ok true
  else match source, destination with
    | .arr sourceItems, destination =>
      if 0x2A ∈ sourcePointer then collectedMatch sourceItems (asItems destination) else .ok false
    | _, .arr [only] => do
      let onlyText ← canonicalJson only
      .ok (sourceText = onlyText)
    | _, .arr _ => .ok false
    | source, destination =>
      if 0x2A ∈ sourcePointer then collectedMatch [source] [destination] else .ok false

end Values

section Steps

/-- Where a claim says that its value comes from. -/
inductive ClaimSource
  | request
  | observation (ref : Str) (path : List Str)

/-- A claim as `_validate_provenance_claims` leaves it: its pointers are written anew from their
paths, and no path is empty. -/
structure ProvenanceClaim where
  destination : List Str
  derivation : Str
  source : ClaimSource
  destination_ne : destination ≠ []

def ProvenanceClaim.destinationPointer (c : ProvenanceClaim) : Str := pointerText c.destination

def ProvenanceClaim.observationDerived (c : ProvenanceClaim) : Bool :=
  match c.source with
  | .request => false
  | .observation _ _ => true

structure ModelStep where
  arguments : List (Str × Json)
  provenanceClaims : List ProvenanceClaim

structure CrossToolTransferBinding where
  observationRef : Str
  operationId : Str
  skillId : Str
  domain : Str
  toolId : Str
  contractVersion : Int
  descriptorHash : Str
  resourceVersion : Str
  transferPattern : Str
  transferScope : Str
  sourcePointer : Str
  subtreeHash : Str
  sensitivity : Sensitivity
  persistence : Persistence
  untrusted : Bool
  deriving DecidableEq

structure Evaluation where
  destinationValues : List (Str × Str) := []
  sources : List CrossToolTransferBinding := []
  effectivePersistence : Persistence := .standard
  untrusted : Bool := false
  crossDomain : Bool := false
  requiresFormalApproval : Bool := false
  deriving DecidableEq

/-- A `ToolLoopContractError` with its code, or what is raised below it. -/
inductive LoopError
  | contract (code : String)
  | raised (e : PyError)
  deriving DecidableEq

abbrev Validated (α : Type) := Except LoopError α

def attempt {α : Type} (x : Except PyError α) : Validated α := x.mapError .raised

def demand (b : Bool) (code : String) : Validated Unit := if b then .ok () else .error (.contract code)

def need {α : Type} (x : Option α) (code : String) : Validated α :=
  match x with
  | some a => .ok a
  | none => .error (.contract code)

/-- `tool_id.partition(".")[0]`. -/
def domainOf (toolId : Str) : Str := toolId.takeWhile (· ≠ 0x2E)

/-- `_CROSS_DOMAIN_SENSITIVITY_MATRIX`. -/
def sensitivityCompatible : Sensitivity → Sensitivity → Bool
  | .normal, _ => true
  | .privateData, destination => destination ∈ [Sensitivity.privateData, .highlyRestricted]
  | .financial, destination => destination ∈ [Sensitivity.financial, .highlyRestricted]
  | .identity, destination => destination ∈ [Sensitivity.identity, .highlyRestricted]
  | .highlyRestricted, _ => false

def policyRank : Persistence → Nat
  | .standard => 0
  | .redacted => 1
  | .noStore => 2

/-- `_most_restrictive_policy`. -/
def mostRestrictivePolicy (policies : List Persistence) : Persistence :=
  policies.foldl (fun most p => if policyRank most < policyRank p then p else most) .standard

/-- The observations by their references, the last one of each. -/
def uniqueObservations (observations : List ToolObservation) : List ToolObservation :=
  (observations.map ToolObservation.observationRef).eraseDups.filterMap fun ref =>
    observations.reverse.find? fun o => o.observationRef = ref

def descriptorByRef (descriptors : List (Str × ToolDescriptor)) (ref : Str) :
    Option ToolDescriptor :=
  (descriptors.find? fun p => p.1 = ref).map Prod.snd

/-- A claim on an observation that was accepted, with the field that it falls under. -/
structure ObservationClaim where
  observationRef : Str
  sourcePointer : Str
  field : TransferableObservationField

variable [PythonText]

/-- A copy is the value of its source. -/
def copyMatches (derivation : Str) (source destination : Json) (sourcePointer : Str) :
    Except PyError Bool :=
  if derivation = "copy" then transferValuesMatch source destination sourcePointer else .ok true

/-- What one claim comes to: whether the model has derived its destination, and the claim on an
observation that it is. -/
def assessClaim (arguments : List (Str × Json)) (normalizedText : Str)
    (observations : List ToolObservation) (destination : Option ToolDescriptor)
    (descriptors : List (Str × ToolDescriptor)) (claim : ProvenanceClaim) :
    Validated (Bool × Option ObservationClaim) := do
  let found ← attempt (pointerValue (.obj arguments) claim.destinationPointer)
  let destinationValue ← need found "provenance_destination_missing"
  match claim.source with
  | .request => do
    let appears ← attempt (requestValueAppears normalizedText destinationValue)
    .ok (!appears, none)
  | .observation ref path => do
    let d ← need destination "observation_transfer_destination_missing"
    let o ← need (observations.find? fun o => o.observationRef = ref)
      "provenance_observation_ref_stale"
    let s ← need (descriptorByRef descriptors ref) "provenance_observation_ref_stale"
    let crossDomain := domainOf s.toolId ≠ domainOf d.toolId
    let field ← need (matchingTransferField s.transferableObservationFields (pointerText path)
      crossDomain) "observation_transfer_field_denied"
    demand (!crossDomain || sensitivityCompatible s.sensitivity d.sensitivity)
      "observation_transfer_sensitivity_denied"
    let reached ← attempt (transferPointerValue (.obj o.payload) (pointerText path))
    let sourceValue ← need reached "observation_transfer_value_mismatch"
    let matched ← attempt
      (copyMatches claim.derivation sourceValue destinationValue (pointerText path))
    demand matched "observation_transfer_value_mismatch"
    .ok (true, some ⟨o.observationRef, pointerText path, field⟩)

/-- One leaf is covered by one claim, or its value appears in the text. -/
def checkLeaf (destinations : List Str) (normalizedText : Str) (leaf : Str × Json) :
    Validated Unit :=
  match destinations.filter fun destination => pointerCovers destination leaf.1 with
  | [] => do
    let appears ← attempt (requestValueAppears normalizedText leaf.2)
    demand appears "argument_provenance_unproven"
  | [_] => .ok ()
  | _ => .error (.contract "provenance_destination_overlap")

def transferBinding (o : ToolObservation) (d : ToolDescriptor) (field : TransferableObservationField)
    (sourcePointer : Str) (subtree : Json) : Validated CrossToolTransferBinding := do
  let descriptorHash ← attempt (sha256 d.toStorageDict)
  let subtreeHash ← attempt (sha256 subtree)
  .ok {
    observationRef := o.observationRef
    operationId := o.operationId
    skillId := d.skillId
    domain := domainOf d.toolId
    toolId := d.toolId
    contractVersion := d.contractVersion
    descriptorHash := descriptorHash
    resourceVersion := []
    transferPattern := field.pattern
    transferScope := field.scope
    sourcePointer := sourcePointer
    subtreeHash := subtreeHash
    sensitivity := d.sensitivity
    persistence := d.persistence
    untrusted := o.untrusted }

def namedBinding (o : ToolObservation) (d : ToolDescriptor) (crosses : Bool)
    (claim : ObservationClaim) : Validated CrossToolTransferBinding := do
  demand (!crosses || claim.field.scope = TransferScope.crossDomain.value)
    "observation_transfer_field_denied"
  let reached ← attempt (transferPointerValue (.obj o.payload) claim.sourcePointer)
  let sourceValue ← need reached "observation_transfer_value_mismatch"
  transferBinding o d claim.field claim.sourcePointer sourceValue

/-- The bindings of the values that claims name. Those of an observation that no claim names bind
the whole of it, by the first field that may cross the domains. -/
def observationBindings (d : ToolDescriptor) (descriptors : List (Str × ToolDescriptor))
    (claims : List ObservationClaim) (o : ToolObservation) :
    Validated (List CrossToolTransferBinding × Persistence) := do
  let s ← need (descriptorByRef descriptors o.observationRef)
    "provenance_observation_descriptor_missing"
  let crosses := domainOf s.toolId ≠ domainOf d.toolId
  demand (!crosses || sensitivityCompatible s.sensitivity d.sensitivity)
    "observation_transfer_sensitivity_denied"
  match claims.filter fun claim => claim.observationRef = o.observationRef with
  | [] => do
    let field ← need (s.transferableObservationFields.find? fun f =>
      f.scope = TransferScope.crossDomain.value) "observation_exposure_transfer_denied"
    let binding ← transferBinding o s field [] (.obj o.payload)
    .ok ([binding], s.persistence)
  | named => do
    let bindings ← named.mapM (namedBinding o s crosses)
    .ok (bindings, s.persistence)

def destinationHash (arguments : List (Str × Json)) (pointer : Str) : Validated (Str × Str) := do
  let found ← attempt (pointerValue (.obj arguments) pointer)
  let hash ← attempt (sha256 (found.getD .null))
  .ok (pointer, hash)

/-- What is passed on between domains, behind the checks of the arguments. -/
def evaluateTransfer (arguments : List (Str × Json)) (observations : List ToolObservation)
    (d : ToolDescriptor) (descriptors : List (Str × ToolDescriptor))
    (modelDerived : List Str) (claims : List ObservationClaim) : Validated Evaluation := do
  let bound ← observations.mapM (observationBindings d descriptors claims)
  let bindings := (bound.map Prod.fst).flatten
  demand (!bindings.isEmpty) "cross_domain_transfer_source_missing"
  let destinationValues ← (modelDerived.insertionSort (· ≤ ·)).mapM (destinationHash arguments)
  .ok {
    destinationValues := destinationValues
    sources := bindings
    effectivePersistence := mostRestrictivePolicy (d.persistence :: bound.map Prod.snd)
    untrusted := bindings.any CrossToolTransferBinding.untrusted
    crossDomain := true
    requiresFormalApproval := bindings.any fun b => b.persistence = .noStore }

/-- The evaluation of a call whose arguments are proven. -/
def evaluateProven (arguments : List (Str × Json)) (observations : List ToolObservation)
    (destination : Option ToolDescriptor) (descriptors : List (Str × ToolDescriptor))
    (modelDerived : List Str) (claims : List ObservationClaim) : Validated Evaluation :=
  let own := (destination.map ToolDescriptor.persistence).getD .standard
  let withinDomain : Evaluation := {
    effectivePersistence := mostRestrictivePolicy (own ::
      if modelDerived = [] then [] else descriptors.map fun p => p.2.persistence)
    untrusted := modelDerived ≠ [] && observations.any ToolObservation.untrusted }
  match destination with
  | some d =>
    if modelDerived ≠ [] && descriptors.any fun p => domainOf p.2.toolId ≠ domainOf d.toolId then
      evaluateTransfer arguments observations d descriptors modelDerived claims
    else .ok withinDomain
  | none => .ok withinDomain

/-- `_validate_p3_provenance`. -/
def validateP3Provenance (step : ModelStep) (requestText : Str)
    (observations : List ToolObservation) (destination : Option ToolDescriptor)
    (descriptors : List (Str × ToolDescriptor)) : Validated Evaluation := do
  let destinations := (step.provenanceClaims.map ProvenanceClaim.destinationPointer).eraseDups
  let _ ← destinations.mapM fun pointer => do
    let found ← attempt (pointerValue (.obj step.arguments) pointer)
    need found "provenance_destination_missing"
  if observations = [] then do
    demand (!step.provenanceClaims.any ProvenanceClaim.observationDerived)
      "provenance_observation_ref_stale"
    .ok { effectivePersistence := (destination.map ToolDescriptor.persistence).getD .standard }
  else do
    let unique := uniqueObservations observations
    let assessed ← step.provenanceClaims.mapM
      (assessClaim step.arguments (normalizeRequestText requestText) unique destination descriptors)
    let modelDerived := (((step.provenanceClaims.zip assessed).filter fun p => p.2.1).map
      fun p => p.1.destinationPointer).eraseDups
    let _ ← (leafPointers [] (.obj step.arguments)).mapM
      (checkLeaf destinations (normalizeRequestText requestText))
    evaluateProven step.arguments unique destination descriptors modelDerived
      (assessed.filterMap Prod.snd)

end Steps

section Leaves

def isScalar : Json → Bool
  | .null | .bool _ | .int _ | .float _ | .str _ => true
  | .arr _ | .obj _ => false

/-- The leaf that a path leads to: a scalar or an empty container. Items go by their numbers. -/
inductive LeafAt : Json → List Str → Json → Prop
  | scalar {value : Json} (h : isScalar value = true) : LeafAt value [] value
  | noItems : LeafAt (.arr []) [] (.arr [])
  | noFields : LeafAt (.obj []) [] (.obj [])
  | item {items : List Json} {index : Nat} {child leaf : Json} {path : List Str}
      (h : items[index]? = some child) (hleaf : LeafAt child path leaf) :
      LeafAt (.arr items) (natText index :: path) leaf
  | field {fields : List (Str × Json)} {key : Str} {child leaf : Json} {path : List Str}
      (h : (key, child) ∈ fields) (hleaf : LeafAt child path leaf) :
      LeafAt (.obj fields) (key :: path) leaf

/-- What one character of a segment is written as. -/
def encodeChar (c : CodePoint) : Str :=
  if c = tilde then "~0" else if c = slash then "~1" else [c]

theorem encodeSegment_eq (segment : Str) : encodeSegment segment = segment.flatMap encodeChar := by
  unfold encodeSegment replaceChar
  rw [List.flatMap_assoc]
  congr 1
  funext c
  unfold encodeChar
  by_cases htilde : c = tilde
  · rw [if_pos htilde, if_pos htilde]
    decide
  · rw [if_neg htilde, if_neg htilde]
    by_cases hslash : c = slash <;> simp [hslash]

theorem encodeSegment_natText (n : Nat) : encodeSegment (natText n) = natText n := by
  rw [encodeSegment_eq]
  have hplain : ∀ c ∈ natText n, encodeChar c = [c] := by
    intro c hc
    have hnumeral := isNumeral_natText hc
    have htilde : c ≠ tilde := by
      intro h
      subst h
      exact absurd hnumeral (by decide)
    have hslash : c ≠ slash := by
      intro h
      subst h
      exact absurd hnumeral (by decide)
    rw [encodeChar, if_neg htilde, if_neg hslash]
  calc (natText n).flatMap encodeChar = (natText n).flatMap fun c => [c] :=
        List.flatMap_congr hplain
    _ = natText n := List.flatMap_singleton' _

theorem pointerText_cons (segment : Str) (path : List Str) :
    pointerText (segment :: path) = slash :: encodeSegment segment ++ pointerText path := rfl

theorem pointerText_append (path path' : List Str) :
    pointerText (path ++ path') = pointerText path ++ pointerText path' := List.flatMap_append

theorem mem_leafFields {pointer p : Str} {leaf : Json} {fields : List (Str × Json)} :
    (p, leaf) ∈ leafFields pointer fields ↔ ∃ key child, (key, child) ∈ fields ∧
      (p, leaf) ∈ leafPointers (pointer ++ slash :: encodeSegment key) child := by
  induction fields with
  | nil => simp [leafFields]
  | cons field fields ih =>
    obtain ⟨key, child⟩ := field
    rw [leafFields, List.mem_append, ih]
    constructor
    · intro h
      rcases h with h | ⟨k, c, hmem, h⟩
      · exact ⟨key, child, List.mem_cons_self, h⟩
      · exact ⟨k, c, List.mem_cons_of_mem _ hmem, h⟩
    · intro ⟨k, c, hmem, h⟩
      rcases List.mem_cons.1 hmem with heq | hmem
      · obtain ⟨rfl, rfl⟩ := Prod.mk.inj heq
        exact .inl h
      · exact .inr ⟨k, c, hmem, h⟩

theorem mem_leafItems {pointer p : Str} {leaf : Json} {items : List Json} {index : Nat} :
    (p, leaf) ∈ leafItems pointer index items ↔ ∃ i child, items[i]? = some child ∧
      (p, leaf) ∈ leafPointers (pointer ++ slash :: natText (index + i)) child := by
  induction items generalizing index with
  | nil => simp [leafItems]
  | cons item items ih =>
    rw [leafItems, List.mem_append, ih]
    constructor
    · intro h
      rcases h with h | ⟨i, child, hfound, h⟩
      · exact ⟨0, item, rfl, h⟩
      · refine ⟨i + 1, child, hfound, ?_⟩
        rwa [Nat.add_assoc, Nat.add_comm 1 i] at h
    · intro ⟨i, child, hfound, h⟩
      cases i with
      | zero =>
        obtain rfl := Option.some.inj hfound
        exact .inl h
      | succ i =>
        refine .inr ⟨i, child, hfound, ?_⟩
        rwa [Nat.add_assoc, Nat.add_comm 1 i]

theorem leafPointers_scalar {value : Json} (h : isScalar value = true) (pointer : Str) :
    leafPointers pointer value = [(pointer, value)] := by
  cases value with
  | arr items => cases h
  | obj fields => cases h
  | null | bool _ | int _ | float _ | str _ => rw [leafPointers]

theorem mem_leafPointers_obj {pointer p : Str} {leaf : Json} {fields : List (Str × Json)}
    (hne : fields ≠ []) :
    (p, leaf) ∈ leafPointers pointer (.obj fields) ↔ (p, leaf) ∈ leafFields pointer fields := by
  cases fields with
  | nil => exact absurd rfl hne
  | cons field fields => rw [leafPointers]

theorem mem_leafPointers_arr {pointer p : Str} {leaf : Json} {items : List Json} (hne : items ≠ []) :
    (p, leaf) ∈ leafPointers pointer (.arr items) ↔ (p, leaf) ∈ leafItems pointer 0 items := by
  cases items with
  | nil => exact absurd rfl hne
  | cons item items => rw [leafPointers]

/-- Every leaf that is enumerated is one, at the path that its pointer is written from. -/
theorem leafAt_of_mem (value : Json) : ∀ pointer p leaf, (p, leaf) ∈ leafPointers pointer value →
    ∃ path, p = pointer ++ pointerText path ∧ LeafAt value path leaf := by
  have hscalar : ∀ {value : Json}, isScalar value = true → ∀ pointer p leaf,
      (p, leaf) ∈ leafPointers pointer value →
        ∃ path, p = pointer ++ pointerText path ∧ LeafAt value path leaf := by
    intro value hvalue pointer p leaf hmem
    rw [leafPointers_scalar hvalue, List.mem_singleton, Prod.mk.injEq] at hmem
    obtain ⟨rfl, rfl⟩ := hmem
    exact ⟨[], (List.append_nil _).symm, .scalar hvalue⟩
  induction value using Json.induct with
  | null => exact hscalar rfl
  | bool b => exact hscalar rfl
  | int n => exact hscalar rfl
  | float bits => exact hscalar rfl
  | str s => exact hscalar rfl
  | arr items ih =>
    intro pointer p leaf hmem
    by_cases hempty : items = []
    · subst hempty
      rw [leafPointers, List.mem_singleton, Prod.mk.injEq] at hmem
      obtain ⟨rfl, rfl⟩ := hmem
      exact ⟨[], (List.append_nil _).symm, .noItems⟩
    · rw [mem_leafPointers_arr hempty, mem_leafItems] at hmem
      obtain ⟨i, child, hfound, hchild⟩ := hmem
      obtain ⟨path, rfl, hleaf⟩ := ih child (List.mem_of_getElem? hfound) _ _ _ hchild
      refine ⟨natText i :: path, ?_, .item hfound hleaf⟩
      rw [pointerText_cons, encodeSegment_natText, Nat.zero_add, List.append_assoc]
  | obj fields ih =>
    intro pointer p leaf hmem
    by_cases hempty : fields = []
    · subst hempty
      rw [leafPointers, List.mem_singleton, Prod.mk.injEq] at hmem
      obtain ⟨rfl, rfl⟩ := hmem
      exact ⟨[], (List.append_nil _).symm, .noFields⟩
    · rw [mem_leafPointers_obj hempty, mem_leafFields] at hmem
      obtain ⟨key, child, hfield, hchild⟩ := hmem
      obtain ⟨path, rfl, hleaf⟩ := ih (key, child) hfield _ _ _ hchild
      refine ⟨key :: path, ?_, .field hfield hleaf⟩
      rw [pointerText_cons, List.append_assoc]

/-- Every leaf is enumerated. -/
theorem mem_of_leafAt {value leaf : Json} {path : List Str} (h : LeafAt value path leaf) :
    ∀ pointer, (pointer ++ pointerText path, leaf) ∈ leafPointers pointer value := by
  induction h with
  | scalar hvalue =>
    intro pointer
    rw [leafPointers_scalar hvalue, pointerText, List.flatMap_nil, List.append_nil]
    exact List.mem_singleton_self _
  | noItems =>
    intro pointer
    rw [leafPointers, pointerText, List.flatMap_nil, List.append_nil]
    exact List.mem_singleton_self _
  | noFields =>
    intro pointer
    rw [leafPointers, pointerText, List.flatMap_nil, List.append_nil]
    exact List.mem_singleton_self _
  | @item items index child leaf path hfound hleaf ih =>
    intro pointer
    have hne : items ≠ [] := List.ne_nil_of_mem (List.mem_of_getElem? hfound)
    rw [mem_leafPointers_arr hne, mem_leafItems]
    refine ⟨index, child, hfound, ?_⟩
    rw [pointerText_cons, encodeSegment_natText, ← List.append_assoc, Nat.zero_add]
    exact ih _
  | @field fields key child leaf path hfield hleaf ih =>
    intro pointer
    rw [mem_leafPointers_obj (List.ne_nil_of_mem hfield), mem_leafFields]
    refine ⟨key, child, hfield, ?_⟩
    rw [pointerText_cons, ← List.append_assoc]
    exact ih _

/-- No member of a container is its root. -/
theorem LeafAt.path_ne_nil {fields : List (Str × Json)} {path : List Str} {leaf : Json}
    (h : LeafAt (.obj fields) path leaf) (hne : fields ≠ []) : path ≠ [] := by
  intro hroot
  subst hroot
  cases h with
  | scalar hscalar => cases hscalar
  | noFields => exact hne rfl

end Leaves

section Coverage

theorem slash_notMem_encodeSegment (segment : Str) : slash ∉ encodeSegment segment := by
  rw [encodeSegment_eq]
  intro hmem
  obtain ⟨c, -, hc⟩ := List.mem_flatMap.1 hmem
  unfold encodeChar at hc
  split at hc
  · exact absurd hc (by decide)
  · split at hc
    · exact absurd hc (by decide)
    · next hne => exact hne (List.mem_singleton.1 hc).symm

theorem encodeChar_append_inj {c d : CodePoint} {u v : Str}
    (h : encodeChar c ++ u = encodeChar d ++ v) : c = d ∧ u = v := by
  have htilde : text "~0" = [tilde, 0x30] := by decide
  have hslash : text "~1" = [tilde, 0x31] := by decide
  unfold encodeChar at h
  by_cases hc : c = tilde
  · by_cases hd : d = tilde
    · rw [if_pos hc, if_pos hd] at h
      exact ⟨hc.trans hd.symm, List.append_cancel_left h⟩
    · rw [if_pos hc, if_neg hd, htilde] at h
      by_cases hd' : d = slash
      · rw [if_pos hd', hslash] at h
        simp at h
      · rw [if_neg hd'] at h
        exact absurd (List.cons.inj h).1.symm hd
  · by_cases hd : d = tilde
    · rw [if_neg hc, if_pos hd, htilde] at h
      by_cases hc' : c = slash
      · rw [if_pos hc', hslash] at h
        simp at h
      · rw [if_neg hc'] at h
        exact absurd (List.cons.inj h).1 hc
    · rw [if_neg hc, if_neg hd] at h
      by_cases hc' : c = slash <;> by_cases hd' : d = slash
      · rw [if_pos hc', if_pos hd'] at h
        exact ⟨hc'.trans hd'.symm, List.append_cancel_left h⟩
      · rw [if_pos hc', if_neg hd', hslash] at h
        exact absurd (List.cons.inj h).1.symm hd
      · rw [if_neg hc', if_pos hd', hslash] at h
        exact absurd (List.cons.inj h).1 hc
      · rw [if_neg hc', if_neg hd'] at h
        exact ⟨(List.cons.inj h).1, (List.cons.inj h).2⟩

theorem encodeChar_ne_nil (c : CodePoint) : encodeChar c ≠ [] := by
  unfold encodeChar
  split
  · decide
  · split
    · decide
    · exact List.cons_ne_nil _ _

theorem encodeSegment_injective {s t : Str} (h : encodeSegment s = encodeSegment t) : s = t := by
  rw [encodeSegment_eq, encodeSegment_eq] at h
  induction s generalizing t with
  | nil =>
    cases t with
    | nil => rfl
    | cons d t => exact absurd (List.append_eq_nil_iff.1 h.symm).1 (encodeChar_ne_nil d)
  | cons c s ih =>
    cases t with
    | nil => exact absurd (List.append_eq_nil_iff.1 h).1 (encodeChar_ne_nil c)
    | cons d t =>
      obtain ⟨rfl, hrest⟩ := encodeChar_append_inj h
      rw [ih hrest]

/-- What follows a segment of a pointer: its end or the next segment. -/
def Follows (u : Str) : Prop := ∀ c ∈ u.head?, c = slash

theorem follows_pointerText (path : List Str) : Follows (pointerText path) := by
  cases path with
  | nil => intro c hc; cases hc
  | cons segment path => intro c hc; exact (Option.some.inj hc).symm

theorem encodeSegment_append_inj {s t u v : Str} (hu : Follows u) (hv : Follows v)
    (h : encodeSegment s ++ u = encodeSegment t ++ v) : s = t ∧ u = v := by
  have htake : ∀ {s u : Str}, Follows u →
      (encodeSegment s ++ u).takeWhile (· ≠ slash) = encodeSegment s := by
    intro s u hu
    have hall : ∀ c ∈ encodeSegment s, decide (c ≠ slash) = true := fun c hc =>
      decide_eq_true fun h => slash_notMem_encodeSegment s (h ▸ hc)
    rw [List.takeWhile_append_of_pos hall]
    cases u with
    | nil => exact List.append_nil _
    | cons c u => simp [hu c rfl]
  have hsegment : encodeSegment s = encodeSegment t := by
    rw [← htake hu, h, htake hv]
  rw [hsegment] at h
  exact ⟨encodeSegment_injective hsegment, List.append_cancel_left h⟩

theorem prefix_of_pointerText {ancestor path : List Str} {u : Str} (hu : Follows u)
    (h : pointerText ancestor ++ u = pointerText path) : ancestor <+: path := by
  induction ancestor generalizing path with
  | nil => exact List.nil_prefix
  | cons segment ancestor ih =>
    cases path with
    | nil => cases h
    | cons segment' path =>
      rw [pointerText_cons, pointerText_cons, List.append_assoc] at h
      have hfollows : Follows (pointerText ancestor ++ u) := by
        cases ancestor with
        | nil => exact hu
        | cons next ancestor => exact fun c hc => (Option.some.inj hc).symm
      obtain ⟨rfl, hrest⟩ := encodeSegment_append_inj hfollows (follows_pointerText path)
        (List.cons.inj h).2
      exact List.cons_prefix_cons.2 ⟨rfl, ih hrest⟩

/-- A pointer covers what its path is the begin of. -/
theorem pointerCovers_iff {ancestor path : List Str} :
    pointerCovers (pointerText ancestor) (pointerText path) = true ↔ ancestor <+: path := by
  unfold pointerCovers startsWith
  rw [Bool.or_eq_true, decide_eq_true_eq, List.isPrefixOf_iff_prefix]
  constructor
  · intro h
    rcases h with h | ⟨v, h⟩
    · exact prefix_of_pointerText (fun c hc => by cases hc) ((List.append_nil _).trans h.symm)
    · rw [List.append_assoc] at h
      exact prefix_of_pointerText (u := slash :: v) (fun c hc => (Option.some.inj hc).symm) h
  · intro ⟨rest, h⟩
    subst h
    rw [pointerText_append]
    cases rest with
    | nil => exact .inl (List.append_nil _)
    | cons segment rest =>
      refine .inr ⟨encodeSegment segment ++ pointerText rest, ?_⟩
      rw [pointerText_cons, List.append_assoc]
      rfl

end Coverage

section Errors

variable {α β : Type}

def unproven : LoopError := .contract "argument_provenance_unproven"

/-- A part of the validation that has other errors only. -/
def Avoids (x : Validated α) : Prop := x ≠ .error unproven

theorem avoids_ok (a : α) : Avoids (.ok a : Validated α) := fun h => by cases h

theorem avoids_attempt (x : Except PyError α) : Avoids (attempt x) := by
  intro h
  cases x <;> cases h

theorem avoids_need {x : Option α} {code : String} (hcode : LoopError.contract code ≠ unproven) :
    Avoids (need x code) := by
  cases x with
  | none => exact fun h => hcode (Except.error.inj h)
  | some a => exact avoids_ok a

theorem avoids_demand {b : Bool} {code : String} (hcode : LoopError.contract code ≠ unproven) :
    Avoids (demand b code) := by
  cases b with
  | false => exact fun h => hcode (Except.error.inj h)
  | true => exact avoids_ok ()

theorem bind_eq_error {x : Validated α} {f : α → Validated β} {e : LoopError} :
    x >>= f = .error e ↔ x = .error e ∨ ∃ a, x = .ok a ∧ f a = .error e := by
  cases x <;> simp [bind, Except.bind]

theorem Avoids.bind {x : Validated α} {f : α → Validated β} (hx : Avoids x)
    (hf : ∀ a, Avoids (f a)) : Avoids (x >>= f) := by
  intro h
  rcases bind_eq_error.1 h with hfirst | ⟨a, -, hrest⟩
  · exact hx hfirst
  · exact hf a hrest

theorem mapM_eq_error {f : α → Validated β} {xs : List α} {e : LoopError}
    (h : xs.mapM f = .error e) : ∃ x ∈ xs, f x = .error e := by
  induction xs with
  | nil => cases h
  | cons x xs ih =>
    rw [List.mapM_cons] at h
    rcases bind_eq_error.1 h with hfirst | ⟨y, -, hrest⟩
    · exact ⟨x, List.mem_cons_self, hfirst⟩
    · rcases bind_eq_error.1 hrest with hlater | ⟨ys, -, hdone⟩
      · obtain ⟨x', hmem, hx'⟩ := ih hlater
        exact ⟨x', List.mem_cons_of_mem _ hmem, hx'⟩
      · cases hdone

theorem avoids_mapM {f : α → Validated β} (hf : ∀ x, Avoids (f x)) (xs : List α) :
    Avoids (xs.mapM f) := by
  intro h
  obtain ⟨x, -, hx⟩ := mapM_eq_error h
  exact hf x hx

variable [PythonText]

theorem avoids_assessClaim (arguments : List (Str × Json)) (normalizedText : Str)
    (observations : List ToolObservation) (destination : Option ToolDescriptor)
    (descriptors : List (Str × ToolDescriptor)) (claim : ProvenanceClaim) :
    Avoids (assessClaim arguments normalizedText observations destination descriptors claim) := by
  unfold assessClaim
  refine (avoids_attempt _).bind fun found => (avoids_need (by decide)).bind fun value => ?_
  cases claim.source with
  | request => exact (avoids_attempt _).bind fun appears => avoids_ok _
  | observation ref path =>
    refine (avoids_need (by decide)).bind fun d => (avoids_need (by decide)).bind fun o =>
      (avoids_need (by decide)).bind fun s => ?_
    refine (avoids_need (by decide)).bind fun field => (avoids_demand (by decide)).bind fun _ => ?_
    refine (avoids_attempt _).bind fun reached => (avoids_need (by decide)).bind fun source => ?_
    exact (avoids_attempt _).bind fun matched => (avoids_demand (by decide)).bind fun _ =>
      avoids_ok _

theorem avoids_transferBinding (o : ToolObservation) (d : ToolDescriptor)
    (field : TransferableObservationField) (sourcePointer : Str) (subtree : Json) :
    Avoids (transferBinding o d field sourcePointer subtree) :=
  (avoids_attempt _).bind fun _ => (avoids_attempt _).bind fun _ => avoids_ok _

theorem avoids_observationBindings (d : ToolDescriptor) (descriptors : List (Str × ToolDescriptor))
    (claims : List ObservationClaim) (o : ToolObservation) :
    Avoids (observationBindings d descriptors claims o) := by
  unfold observationBindings
  refine (avoids_need (by decide)).bind fun s => (avoids_demand (by decide)).bind fun _ => ?_
  split
  · exact (avoids_need (by decide)).bind fun field =>
      (avoids_transferBinding _ _ _ _ _).bind fun binding => avoids_ok _
  · refine (avoids_mapM (fun claim => ?_) _).bind fun bindings => avoids_ok _
    exact (avoids_demand (by decide)).bind fun _ => (avoids_attempt _).bind fun reached =>
      (avoids_need (by decide)).bind fun source => avoids_transferBinding _ _ _ _ _

theorem avoids_evaluateProven (arguments : List (Str × Json)) (observations : List ToolObservation)
    (destination : Option ToolDescriptor) (descriptors : List (Str × ToolDescriptor))
    (modelDerived : List Str) (claims : List ObservationClaim) :
    Avoids (evaluateProven arguments observations destination descriptors modelDerived claims) := by
  unfold evaluateProven
  dsimp only
  split
  · split
    · refine (avoids_mapM (fun o => avoids_observationBindings _ _ _ o) _).bind fun bound =>
        (avoids_demand (by decide)).bind fun _ => (avoids_mapM (fun pointer => ?_) _).bind
          fun values => avoids_ok _
      exact (avoids_attempt _).bind fun found => (avoids_attempt _).bind fun hash => avoids_ok _
    · exact avoids_ok _
  · exact avoids_ok _

/-- The check of a leaf fails so where no claim covers it and its value does not appear. -/
theorem checkLeaf_unproven {destinations : List Str} {normalizedText : Str} {leaf : Str × Json}
    (h : checkLeaf destinations normalizedText leaf = .error unproven) :
    (∀ destination ∈ destinations, pointerCovers destination leaf.1 = false) ∧
      requestValueAppears normalizedText leaf.2 = .ok false := by
  unfold checkLeaf at h
  split at h
  · next hnone =>
    refine ⟨fun destination hmem => ?_, ?_⟩
    · rw [← Bool.not_eq_true]
      exact List.filter_eq_nil_iff.1 hnone destination hmem
    · rcases bind_eq_error.1 h with hraised | ⟨appears, happears, hdemand⟩
      · exact absurd hraised (avoids_attempt _)
      · cases appears with
        | true => cases hdemand
        | false =>
          revert happears
          cases requestValueAppears normalizedText leaf.2 with
          | error e => intro happears; cases happears
          | ok b => exact fun happears => congrArg _ (Except.ok.inj happears)
  · cases h
  · exact absurd (Except.error.inj h) (by decide)

end Errors

section Claim

variable [PythonText]

/-- An argument that is not proven: a scalar that does not appear in the text of the request or an
empty container, at a path that no claim covers. -/
def UnprovenLeaf (step : ModelStep) (requestText : Str) (path : List Str) (leaf : Json) : Prop :=
  LeafAt (.obj step.arguments) path leaf ∧
    (∀ claim ∈ step.provenanceClaims, ¬claim.destination <+: path) ∧
    (isScalar leaf = true → requestValueAppears (normalizeRequestText requestText) leaf = .ok false)

/-- A call with arguments is refused for its provenance only where some leaf of them is unproven. -/
theorem validateP3Provenance_unproven {step : ModelStep} {requestText : Str}
    {observations : List ToolObservation} {destination : Option ToolDescriptor}
    {descriptors : List (Str × ToolDescriptor)} (hne : step.arguments ≠ [])
    (h : validateP3Provenance step requestText observations destination descriptors =
      .error (.contract "argument_provenance_unproven")) :
    ∃ path leaf, path ≠ [] ∧ UnprovenLeaf step requestText path leaf := by
  unfold validateP3Provenance at h
  rcases bind_eq_error.1 h with hexists | ⟨_, -, h⟩
  · refine absurd hexists (avoids_mapM (fun pointer => ?_) _)
    exact (avoids_attempt _).bind fun found => avoids_need (by decide)
  split at h
  · exact absurd h ((avoids_demand (by decide)).bind fun _ => avoids_ok _)
  · rcases bind_eq_error.1 h with hassess | ⟨assessed, -, h⟩
    · exact absurd hassess (avoids_mapM (fun claim => avoids_assessClaim _ _ _ _ _ claim) _)
    rcases bind_eq_error.1 h with hleaves | ⟨_, -, h⟩
    · obtain ⟨⟨p, leaf⟩, hmem, hcheck⟩ := mapM_eq_error hleaves
      obtain ⟨hcovers, happears⟩ := checkLeaf_unproven hcheck
      obtain ⟨path, rfl, hleaf⟩ := leafAt_of_mem _ _ _ _ hmem
      refine ⟨path, leaf, hleaf.path_ne_nil hne, hleaf, fun claim hclaim hprefix => ?_,
        fun _ => happears⟩
      · have hdestination : claim.destinationPointer ∈
            (step.provenanceClaims.map ProvenanceClaim.destinationPointer).eraseDups :=
          List.mem_eraseDups.2 (List.mem_map_of_mem hclaim)
        have hcovered := hcovers _ hdestination
        rw [List.nil_append, ProvenanceClaim.destinationPointer, pointerCovers_iff.2 hprefix]
          at hcovered
        cases hcovered
    · exact absurd h (avoids_evaluateProven _ _ _ _ _ _)

end Claim

section Sample

def sampleObservation : ToolObservation where
  status := .ok
  observationRef := "o"
  payload := []
  safeMessage := []
  missingFields := []
  retryable := false
  committedEffect := false
  receiptRefs := []
  reviewRefs := []
  jobRefs := []
  untrusted := false
  operationId := []

/-- A call with one argument, behind an observation. -/
def validateSample (argument : Json) : Validated Evaluation :=
  @validateP3Provenance asciiText ⟨[("a", argument)], []⟩ "b" [sampleObservation] none []

theorem validateSample_unproven : ∀ argument ∈ [Json.str "c", .arr []],
    validateSample argument = .error (.contract "argument_provenance_unproven") := by
  decide +kernel

theorem validateP3Provenance_unproven_text :
    ∃ path leaf, path ≠ [] ∧
      @UnprovenLeaf asciiText ⟨[("a", .str "c")], []⟩ "b" path leaf :=
  @validateP3Provenance_unproven asciiText ⟨[("a", .str "c")], []⟩ "b" [sampleObservation] none []
    (List.cons_ne_nil _ _) (validateSample_unproven (.str "c") (by simp))

/-- An empty list is refused for its provenance, where no scalar is in the arguments. -/
theorem empty_list_unproven :
    validateSample (.arr []) = .error (.contract "argument_provenance_unproven") ∧
      ¬∃ path leaf, LeafAt (.obj [("a", .arr [])]) path leaf ∧ isScalar leaf = true := by
  refine ⟨validateSample_unproven (.arr []) (by simp), fun ⟨path, leaf, hleaf, hscalar⟩ => ?_⟩
  have hmem := mem_of_leafAt hleaf []
  have hleaves : leafPointers [] (.obj [("a", .arr [])]) = [(text "/a", .arr [])] := by decide
  rw [hleaves, List.mem_singleton, Prod.mk.injEq] at hmem
  rw [hmem.2] at hscalar
  cases hscalar

end Sample

end HardyAI.Core.Provenance
