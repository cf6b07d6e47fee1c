import HardyAI.Foundation.ShorterJson
import HardyAI.Skills.Arguments
import HardyAI.Skills.DescriptorStorage

/-! Arguments that are validated before all of them are given. -/

open Foundation Foundation.Json HardyAI.Skills

namespace HardyAI.Core

section Payloads

/-- `ToolLoopContractError`, and what is raised beside it. -/
inductive PayloadError
  | contract (code : String)
  | other (e : PyError)
  deriving DecidableEq

def payloadError (observation : Bool) : PyError → PayloadError
  | .toolContractError _ =>
    .contract (if observation then "tool_observation_schema_invalid"
      else "tool_arguments_schema_invalid")
  | e => .other e

/-- The schema with no field required. -/
def optional (schema : Json) : Json := .obj (setField (entriesOf schema) "required" (.arr []))

def payloadSchema (d : ToolDescriptor) (observation incomplete : Bool) : Json :=
  let schema := if observation then d.observationSchema else d.inputSchema
  if incomplete then optional schema else schema

variable [PythonText]

def payloadValidator (d : ToolDescriptor) (observation incomplete : Bool) :
    Except PyError ToolDescriptor :=
  fromMapping (.obj (setField (entriesOf d.toStorageDict) "input_schema"
    (payloadSchema d observation incomplete))) (some d.skillId)

variable [DateText]

/-- `validate_descriptor_payload`. -/
def validateDescriptorPayload (d : ToolDescriptor) (value : Json)
    (observation incomplete : Bool) : Except PayloadError (List (Str × Json)) :=
  match value with
  | .obj _ =>
    match payloadValidator d observation incomplete >>= fun v => v.validateArguments value with
    | .ok arguments => .ok arguments
    | .error e => .error (payloadError observation e)
  | _ => .error (.contract "tool_payload_not_object")

theorem validateDescriptorPayload_eq_ok {d : ToolDescriptor} {fields n : List (Str × Json)}
    {observation incomplete : Bool} :
    validateDescriptorPayload d (.obj fields) observation incomplete = .ok n ↔
      ∃ v, payloadValidator d observation incomplete = .ok v ∧
        v.validateArguments (.obj fields) = .ok n := by
  rw [← bind_eq_ok]
  unfold validateDescriptorPayload
  dsimp only
  cases payloadValidator d observation incomplete >>= fun v => v.validateArguments (.obj fields)
    with
  | ok arguments => simp only [Except.ok.injEq]
  | error e => exact ⟨fun h => (by cases h), fun h => (by cases h)⟩

end Payloads

section Canonical

variable [PythonText]

/-- Where `x` has a canonical text, a part of it is the canonical text of `y`. -/
def CanonicallyShorter (x y : Json) : Prop :=
  ∀ c, canonicalValue x = .ok c → ∃ c', canonicalValue y = .ok c' ∧ Shorter c c'

theorem canonicallyShorter_refl (x : Json) : CanonicallyShorter x x :=
  fun c hc => ⟨c, hc, Shorter.refl c⟩

theorem canonicallyShorter_empty (items : List Json) :
    CanonicallyShorter (.arr items) (.arr []) := by
  intro c hc
  rw [canonicalValue_arr, map_eq_ok] at hc
  obtain ⟨ys, -, rfl⟩ := hc
  exact ⟨.arr [], rfl, shorter_empty ys⟩

theorem shorterFields_setField {fs gs : List (Str × Json)} (h : ShorterFields fs gs) (k : Str)
    {x y : Json} (hxy : Shorter x y) : ShorterFields (setField fs k x) (setField gs k y) := by
  have hkeys : gs.map Prod.fst = fs.map Prod.fst := by
    induction h with
    | nil => rfl
    | cons hpq _ ih => rw [List.map_cons, List.map_cons, hpq.1, ih]
  have hsame : (lookup gs k).isSome = (lookup fs k).isSome := by
    rw [Bool.eq_iff_iff, Option.isSome_iff_ne_none, Option.isSome_iff_ne_none, ne_eq, ne_eq,
      lookup_eq_none, lookup_eq_none, hkeys]
  rw [setField, setField, hsame]
  split
  · rw [ShorterFields, List.forall₂_map_left_iff, List.forall₂_map_right_iff]
    refine h.imp fun p q hpq => ?_
    rw [hpq.1]
    split
    · exact ⟨rfl, hxy⟩
    · exact hpq
  · exact List.rel_append h (.cons ⟨rfl, hxy⟩ .nil)

/-- The loop over the members keeps the texts parts of each other. -/
theorem canonicalFields_shorter {fs gs : List (Str × Json)}
    (h : List.Forall₂ (fun p q => q.1 = p.1 ∧ CanonicallyShorter p.2 q.2) fs gs)
    {acc acc' cs : List (Str × Json)} (hacc : ShorterFields acc acc')
    (hcs : canonicalFields acc fs = .ok cs) :
    ∃ cs', canonicalFields acc' gs = .ok cs' ∧ ShorterFields cs cs' := by
  induction h generalizing acc acc' with
  | nil =>
    cases hcs
    exact ⟨acc', rfl, hacc⟩
  | @cons p q fs gs hpq _ ih =>
    obtain ⟨k, x⟩ := p
    obtain ⟨l, y⟩ := q
    obtain ⟨rfl, hshorter⟩ := hpq
    simp only [canonicalFields_cons, bind_eq_ok] at hcs ⊢
    obtain ⟨c, hc, hcs⟩ := hcs
    obtain ⟨c', hc', hcc'⟩ := hshorter c hc
    obtain ⟨cs', hcs', hfields⟩ := ih (shorterFields_setField hacc _ hcc') hcs
    exact ⟨cs', ⟨c', hc', hcs'⟩, hfields⟩

theorem canonicallyShorter_obj {fs gs : List (Str × Json)}
    (h : List.Forall₂ (fun p q => q.1 = p.1 ∧ CanonicallyShorter p.2 q.2) fs gs) :
    CanonicallyShorter (.obj fs) (.obj gs) := by
  intro c hc
  rw [canonicalValue_obj, map_eq_ok] at hc
  obtain ⟨cs, hcs, rfl⟩ := hc
  obtain ⟨cs', hcs', hfields⟩ := canonicalFields_shorter h .nil hcs
  exact ⟨.obj cs', by rw [canonicalValue_obj, hcs']; rfl, shorter_obj hfields⟩

theorem canonicalBytes_le {x y : Json} (h : CanonicallyShorter x y) {size : Nat}
    (hsize : canonicalBytes x = .ok size) :
    ∃ size', canonicalBytes y = .ok size' ∧ size' ≤ size := by
  simp only [canonicalBytes, canonicalJson, bind_eq_ok] at hsize ⊢
  obtain ⟨s, ⟨c, hc, hs⟩, bytes, hbytes, h'⟩ := hsize
  cases h'
  obtain ⟨c', hc', hshorter⟩ := h c hc
  obtain ⟨t, ht, hpart⟩ := dump_of_shorter hshorter hs
  obtain ⟨fewer, hfewer, hle⟩ := utf8_of_sublist hpart hbytes
  exact ⟨fewer.length, ⟨t, ⟨c', hc', ht⟩, fewer, hfewer, rfl⟩, hle⟩

end Canonical

section Optional

variable [PythonText] {entries : List (Str × Json)} {schema : Json} {d : ToolDescriptor}

omit [PythonText] in
theorem setField_split {before after : List (Str × Json)} {k : Str} {x y : Json}
    (hbefore : k ∉ before.map Prod.fst) (hafter : k ∉ after.map Prod.fst) :
    setField (before ++ (k, x) :: after) k y = before ++ (k, y) :: after := by
  have hkeep : ∀ fields : List (Str × Json), k ∉ fields.map Prod.fst →
      (fields.map fun p => if p.1 = k then (k, y) else p) = fields := by
    intro fields hk
    conv_rhs => rw [← List.map_id fields]
    refine List.map_congr_left fun p hp => ?_
    have hne : p.1 ≠ k := fun heq => hk (heq ▸ List.mem_map_of_mem (f := Prod.fst) hp)
    rw [if_neg hne]
    rfl
  have hsome : (lookup (before ++ (k, x) :: after) k).isSome = true := by
    rw [Option.isSome_iff_ne_none]
    intro hnone
    refine lookup_eq_none.1 hnone ?_
    rw [List.map_append]
    exact List.mem_append_right _ List.mem_cons_self
  rw [setField, if_pos hsome, List.map_append, List.map_cons, hkeep before hbefore,
    hkeep after hafter, if_pos rfl]

omit [PythonText] in
theorem stored_withInput (d : ToolDescriptor) (schema : Json) :
    (d.withInput schema).toStorageDict =
      .obj (setField (entriesOf d.toStorageDict) "input_schema" schema) := by
  have hbefore : text "input_schema" ∉ (descriptorKeys.take 4) := by decide
  have hafter : text "input_schema" ∉ (descriptorKeys.drop 5) := by decide
  have hsplit := @setField_split ((entriesOf d.toStorageDict).take 4)
    ((entriesOf d.toStorageDict).drop 5) "input_schema" d.inputSchema schema hbefore hafter
  exact congrArg Json.obj hsplit.symm

/-- Another value in place of one of which it shortens the text. -/
theorem canonicallyShorter_setField {k : Str} {x : Json}
    (hvalue : ∀ p ∈ entries, p.1 = k → CanonicallyShorter p.2 x)
    (hsome : (lookup entries k).isSome = true) :
    CanonicallyShorter (.obj entries) (.obj (setField entries k x)) := by
  refine canonicallyShorter_obj ?_
  rw [setField, if_pos hsome, List.forall₂_map_right_iff, List.forall₂_same]
  intro p hp
  split
  · next hk => exact ⟨hk.symm, hvalue p hp hk⟩
  · exact ⟨rfl, canonicallyShorter_refl _⟩

theorem closed_obj (h : Closed (.obj entries)) :
    closedObject (closedSchema 8) entries = .ok entries ∧ keysAllowed .object entries = true ∧
      descriptionValid (lookup entries "description") = true ∧
      (∃ enum, enumItems entries = .ok enum) ∧ freezeFields entries = .ok entries ∧
      ∃ size, canonicalBytes (.obj entries) = .ok size ∧ size ≤ 32768 := by
  have hclosed := h.closed
  simp only [closedSchema, bind_eq_ok, require_eq_ok, decide_eq_true_eq] at hclosed
  obtain ⟨t, ht, -, hkeys, -, hdescription, enum, henum, normalized, hbody, frozen, hfrozen, size,
    hsize, -, hbound, hsame⟩ := hclosed
  obtain rfl : SchemaType.object = t := Except.ok.inj (h.object.symm.trans ht)
  obtain rfl : frozen = entries := by
    cases hsame
    rfl
  obtain rfl := freezeFields_eq_ok hfrozen
  exact ⟨hbody, hkeys, hdescription, ⟨enum, henum⟩, hfrozen, size, hsize, hbound⟩

omit [PythonText] in
theorem freezeFields_iff {fields : List (Str × Json)} :
    freezeFields fields = .ok fields ↔ ∀ p ∈ fields, freezeJson p.2 = .ok p.2 := by
  induction fields with
  | nil => exact ⟨fun _ p hp => absurd hp List.not_mem_nil, fun _ => rfl⟩
  | cons p fields ih =>
    obtain ⟨l, y⟩ := p
    rw [List.forall_mem_cons, ← ih]
    simp only [freezeFields, bind_eq_ok, Except.ok.injEq]
    constructor
    · rintro ⟨y', hy', fs', hfs', heq⟩
      cases heq
      exact ⟨hy', hfs'⟩
    · rintro ⟨hy, hfs⟩
      exact ⟨y, hy, fields, hfs, rfl⟩

omit [PythonText] in
theorem freezeFields_setField {fields : List (Str × Json)} (h : freezeFields fields = .ok fields)
    (k : Str) {x : Json} (hx : freezeJson x = .ok x) :
    freezeFields (setField fields k x) = .ok (setField fields k x) := by
  rw [freezeFields_iff] at h ⊢
  intro p hp
  rcases mem_setField hp with hp | rfl
  · exact h p hp
  · exact hx

/-- What the checks of an object wrote into its schema. -/
theorem closedObject_members {close : Json → Except PyError Json}
    (h : closedObject close entries = .ok entries) : ∃ properties required,
      (∀ p ∈ entries, p.1 = text "properties" → p.2 = .obj properties) ∧
      (∀ p ∈ entries, p.1 = text "required" → p.2 = .arr required) := by
  simp only [closedObject, bind_eq_ok, require_eq_ok] at h
  obtain ⟨_, -, -, -, -, -, required, -, -, -, -, -, closed, -, -, -, -, -, h⟩ := h
  have hsame : setField (setField entries "properties" (.obj closed)) "required" (.arr required) =
      entries := Except.ok.inj h
  refine ⟨closed, required, fun p hp hk => ?_, fun p hp hk => ?_⟩
  · rw [← hsame] at hp
    rcases mem_setField hp with hp | rfl
    · exact eq_of_mem_setField hp hk
    · have hne : text "required" ≠ text "properties" := by decide
      exact absurd hk hne
  · rw [← hsame] at hp
    exact eq_of_mem_setField hp hk

omit [PythonText] in
theorem optional_rewrites (entries : List (Str × Json)) :
    Rewrites ["required"] entries (entriesOf (optional (.obj entries))) :=
  (Rewrites.refl _ entries).setField List.mem_cons_self _

theorem closedObject_optional {close : Json → Except PyError Json}
    (h : closedObject close entries = .ok entries) :
    closedObject close (entriesOf (optional (.obj entries))) =
      .ok (entriesOf (optional (.obj entries))) := by
  have hrewrites := optional_rewrites entries
  have hcleared : lookup (entriesOf (optional (.obj entries))) "required" = some (.arr []) :=
    lookup_setField _ _ _
  obtain ⟨properties', _, hproperties', -⟩ := closedObject_members h
  simp only [closedObject, bind_eq_ok, require_eq_ok, objectAt_eq_ok, itemsAt_eq_ok] at h ⊢
  obtain ⟨properties, hproperties, -, hcount, -, hopen, required, hrequired, -, hvalid, -, hbounds,
    closed, hclosed, -, hlength, -, hnames, h⟩ := h
  have hclosed' : properties' = closed := by
    have hwritten : lookup entries "properties" = some (.obj closed) := by
      rw [← Except.ok.inj h, lookup_setField_of_ne (by decide), lookup_setField]
    exact Json.obj.inj (hproperties' _ (mem_of_lookup hwritten) rfl).symm
  subst hclosed'
  refine ⟨properties, (hrewrites.same _ (by decide)).trans hproperties, (), hcount, (), ?_, [],
    hcleared, (), rfl, (), ?_, properties', hclosed, (), hlength, (), hnames, ?_⟩
  · rwa [hrewrites.same _ (by decide)]
  · rw [propertyBoundsValid, hrewrites.intOr (by decide), hrewrites.intOr (by decide)]
    exact hbounds
  · have hfirst : setField (entriesOf (optional (.obj entries))) "properties" (.obj properties') =
        entriesOf (optional (.obj entries)) := by
      refine setField_eq_self (fun p hp hk => ?_) ?_
      · rcases mem_setField hp with hp | rfl
        · exact hproperties' p hp hk
        · have hne : text "required" ≠ text "properties" := by decide
          exact absurd hk hne
      · rw [hrewrites.same _ (by decide), hproperties]
        rfl
    rw [hfirst]
    refine congrArg Except.ok (setField_eq_self (fun p hp hk => ?_) ?_)
    · exact eq_of_mem_setField hp hk
    · rw [hcleared]
      rfl

theorem shorter_optional (h : Closed (.obj entries)) :
    CanonicallyShorter (.obj entries) (optional (.obj entries)) := by
  obtain ⟨hobject, -⟩ := closed_obj h
  obtain ⟨_, required, -, hrequired⟩ := closedObject_members hobject
  refine canonicallyShorter_setField (fun p hp hk => ?_) ?_
  · rw [hrequired p hp hk]
    exact canonicallyShorter_empty required
  · simp only [closedObject, bind_eq_ok, itemsAt_eq_ok] at hobject
    obtain ⟨_, -, -, -, -, -, _, hfound, -⟩ := hobject
    rw [hfound]
    rfl

/-- A closed schema is closed with no field required, too. -/
theorem closed_optional (h : Closed (.obj entries)) : Closed (optional (.obj entries)) := by
  obtain ⟨hobject, hkeys, hdescription, ⟨enum, henum⟩, hfrozen, size, hsize, hbound⟩ :=
    closed_obj h
  have hrewrites := optional_rewrites entries
  have hfreeze : freezeFields (entriesOf (optional (.obj entries))) =
      .ok (entriesOf (optional (.obj entries))) := freezeFields_setField hfrozen _ rfl
  have htype : schemaType (entriesOf (optional (.obj entries))) = .ok .object := by
    rw [hrewrites.schemaType (by decide)]
    exact h.object
  obtain ⟨size', hsize', hle⟩ := canonicalBytes_le (shorter_optional h) hsize
  refine ⟨?_, ?_, htype⟩
  · show closedSchema 9 (.obj (entriesOf (optional (.obj entries)))) = _
    simp only [closedSchema, bind_eq_ok, require_eq_ok, decide_eq_true_eq]
    refine ⟨.object, htype, (), hrewrites.keysAllowed (by decide) hkeys, (), ?_, enum, ?_, _,
      closedObject_optional hobject, _, hfreeze, size', hsize', (), hle.trans hbound, rfl⟩
    · rw [hrewrites.same _ (by decide)]
      exact hdescription
    · rw [hrewrites.enumItems (by decide)]
      exact henum
  · show freezeJson (.obj (entriesOf (optional (.obj entries)))) = _
    rw [freezeJson, hfreeze]
    rfl

theorem shorter_withInput (d : ToolDescriptor) (h : CanonicallyShorter d.inputSchema schema) :
    CanonicallyShorter d.toStorageDict (d.withInput schema).toStorageDict := by
  have hfound := d.lookup_stored 4 rfl
  have hkeys : descriptorKeys.Nodup := by decide +kernel
  have hshorter : CanonicallyShorter (.obj (entriesOf d.toStorageDict))
      (.obj (setField (entriesOf d.toStorageDict) "input_schema" schema)) := by
    refine canonicallyShorter_setField (fun p hp hk => ?_) ?_
    · have hsame := lookup_of_mem (d.keys_stored ▸ hkeys) hp
      rw [hk] at hsame
      rw [Option.some.inj (hsame.symm.trans hfound)]
      exact h
    · exact Option.isSome_of_eq_some hfound
  rw [stored_withInput]
  exact hshorter

/-- The stored descriptor can be read with no field required. -/
def Reconstructs (d : ToolDescriptor) : Prop :=
  readableFields d.toolId d.observationSchema d.transferableObservationFields = true ∧
    (d.readable = true ∨ (d.reread (optional d.inputSchema)).Fits)

theorem payloadValidator_eq_ok {a : DescriptorArgs}
    (hdistinct : d.observationSchema.distinctKeys = true) (h : postInit a = .ok d)
    {v : ToolDescriptor} :
    payloadValidator d false true = .ok v ↔
      Reconstructs d ∧ v = d.reread (optional d.inputSchema) := by
  obtain ⟨hinput, hobservation, size, hsize, hbound⟩ := closed_of_postInit h
  obtain ⟨entries, hentries⟩ : ∃ entries, d.inputSchema = .obj entries := by
    have hclosed := hinput.closed
    cases hschema : d.inputSchema with
    | obj entries => exact ⟨entries, rfl⟩
    | _ =>
      rw [hschema] at hclosed
      cases hclosed
  rw [hentries] at hinput
  have hclosed := closed_optional hinput
  have hskill : ∀ s ∈ some d.skillId, fold s = (d.withInput (optional d.inputSchema)).skillId := by
    rintro s hs
    obtain rfl : d.skillId = s := Option.some.inj hs
    exact fold_of_isSkillId d.skillId_valid
  have hfits : (d.withInput (optional d.inputSchema)).Fits := by
    have hshorter := shorter_withInput d (hentries ▸ shorter_optional hinput)
    obtain ⟨size', hsize', hle⟩ := canonicalBytes_le hshorter hsize
    exact ⟨size', hsize', hle.trans hbound⟩
  show fromMapping (.obj (setField (entriesOf d.toStorageDict) "input_schema"
    (optional d.inputSchema))) (some d.skillId) = .ok v ↔ _
  rw [← stored_withInput, fromMapping_stored hskill (hentries ▸ hclosed.frozen) hobservation.frozen,
    postInit_storedArgs hdistinct h (hentries ▸ hclosed), Reconstructs]
  constructor
  · rintro ⟨hreadable, hfit, rfl⟩
    exact ⟨⟨hreadable, .inr hfit⟩, rfl⟩
  · rintro ⟨⟨hreadable, hfit⟩, rfl⟩
    refine ⟨hreadable, hfit.elim (fun hall => ?_) id, rfl⟩
    have hsame := (readable_iff.1 hall).2
    rw [ToolDescriptor.reread, hsame]
    exact hfits

end Optional

section Restriction

/-- The fields under the given keys. -/
def restrict (keys : List Str) (fields : List (Str × Json)) : List (Str × Json) :=
  fields.filter fun p => p.1 ∈ keys

variable [PythonText] [DateText] {a : DescriptorArgs} {d : ToolDescriptor}
  {fields n : List (Str × Json)}

theorem normalizeMembers_restrict {properties : List (Str × Json)} (keys : List Str)
    (h : normalizeMembers properties fields = .ok n) :
    normalizeMembers properties (restrict keys fields) = .ok (restrict keys n) := by
  induction fields generalizing n with
  | nil =>
    cases h
    rfl
  | cons p fields ih =>
    obtain ⟨k, x⟩ := p
    simp only [normalizeMembers, bind_eq_ok] at h
    obtain ⟨y, hy, ys, hys, h⟩ := h
    cases h
    have hrest := ih hys
    by_cases hk : k ∈ keys
    · have hfields : restrict keys ((k, x) :: fields) = (k, x) :: restrict keys fields :=
        List.filter_cons_of_pos (decide_eq_true hk)
      have hresult : restrict keys ((k, y) :: ys) = (k, y) :: restrict keys ys :=
        List.filter_cons_of_pos (decide_eq_true hk)
      rw [hfields, hresult]
      simp only [normalizeMembers, bind_eq_ok]
      exact ⟨y, hy, _, hrest, rfl⟩
    · have hskip : ¬decide (k ∈ keys) = true := fun h => hk (of_decide_eq_true h)
      have hfields : restrict keys ((k, x) :: fields) = restrict keys fields :=
        List.filter_cons_of_neg hskip
      have hresult : restrict keys ((k, y) :: ys) = restrict keys ys :=
        List.filter_cons_of_neg hskip
      rw [hfields, hresult]
      exact hrest

omit [PythonText] [DateText] in
theorem freezeFields_restrict (keys : List Str) (h : freezeFields n = .ok n) :
    freezeFields (restrict keys n) = .ok (restrict keys n) := by
  rw [freezeFields_iff] at h ⊢
  exact fun p hp => h p (List.mem_of_mem_filter hp)

/-- The restricted arguments have their restricted normal form where no field is required, if and
only if the other checks of the root allow it. -/
theorem normalizeValue_restrict {schema : Json} (keys : List Str)
    (h : normalizeValue schema (.obj fields) = .ok (.obj n)) {m : List (Str × Json)} :
    normalizeValue (optional schema) (.obj (restrict keys fields)) = .ok (.obj m) ↔
      bound (entriesOf schema) "minProperties" 0 ≤ (restrict keys fields).length ∧
        validateScalarEnum (entriesOf schema) (.obj (restrict keys n)) = .ok () ∧
        m = restrict keys n := by
  have hrewrites : Rewrites ["required"] (entriesOf schema) (entriesOf (optional schema)) :=
    (Rewrites.refl _ _).setField List.mem_cons_self _
  have hrequired : requiredGiven (entriesOf (optional schema)) (restrict keys fields) = true := by
    have hcleared : lookup (entriesOf (optional schema)) "required" = some (.arr []) :=
      lookup_setField _ _ _
    rw [requiredGiven, requiredOf, hcleared]
    rfl
  have hproperties : propertiesOf (entriesOf (optional schema)) = propertiesOf (entriesOf schema) := by
    rw [propertiesOf, propertiesOf, hrewrites.same _ (by decide)]
  have hcount : countValid (entriesOf (optional schema)) (restrict keys fields) =
      countValid (entriesOf schema) (restrict keys fields) := by
    have hmin : text "minProperties" ∉ ([text "required"] : List Str) := by decide
    have hmax : text "maxProperties" ∉ ([text "required"] : List Str) := by decide
    rw [countValid, countValid, bound, bound, bound, bound, hproperties, hrewrites.intOr hmin,
      hrewrites.intOr hmax]
  have hscalar : ∀ x, validateScalarEnum (entriesOf (optional schema)) x =
      validateScalarEnum (entriesOf schema) x := by
    intro x
    have hconst : text "const" ∉ ([text "required"] : List Str) := by decide
    have henum : text "enum" ∉ ([text "required"] : List Str) := by decide
    rw [validateScalarEnum, validateScalarEnum, constMatches, constMatches, enumMatches,
      enumMatches, hrewrites.same _ hconst, hrewrites.same _ henum]
  simp only [normalizeValue, bind_eq_ok, require_eq_ok] at h
  obtain ⟨t, ht, -, hobject, -, hknown, -, -, -, hvalid, result, hresult, -, -, frozen, hfrozen, h⟩ :=
    h
  cases h
  obtain rfl := freezeFields_eq_ok hfrozen
  have hmembers := normalizeMembers_restrict keys hresult
  have hfreeze := freezeFields_restrict keys hfrozen
  rw [countValid, Bool.and_eq_true, decide_eq_true_eq, decide_eq_true_eq] at hvalid
  have hle : (restrict keys fields).length ≤ fields.length := List.length_filter_le _ _
  have hfew : ((restrict keys fields).length : Int) ≤
      bound (entriesOf schema) "maxProperties" (propertiesOf (entriesOf schema)).length := by
    have hmost := hvalid.2
    omega
  simp only [normalizeValue, bind_eq_ok, require_eq_ok, hproperties, hcount, hscalar,
    hrewrites.schemaType (by decide)]
  rw [countValid, Bool.and_eq_true, decide_eq_true_eq, decide_eq_true_eq]
  constructor
  · rintro ⟨_, -, -, -, -, -, -, -, -, hmin, result', hresult', ⟨⟩, henum, frozen', hfrozen', h⟩
    obtain rfl : restrict keys n = result' := Except.ok.inj (hmembers.symm.trans hresult')
    obtain rfl : restrict keys n = frozen' := Except.ok.inj (hfreeze.symm.trans hfrozen')
    exact ⟨hmin.1, henum, (Json.obj.inj (Except.ok.inj h)).symm⟩
  · rintro ⟨hmin, henum, rfl⟩
    refine ⟨t, ht, (), hobject, (), ?_, (), hrequired, (), ⟨hmin, hfew⟩, _, hmembers, (), henum, _,
      hfreeze, rfl⟩
    rw [List.all_eq_true] at hknown ⊢
    exact fun p hp => hknown p (List.mem_of_mem_filter hp)

/-- Some of the arguments are validated to their part of the normal form if and only if the stored
descriptor can be read and the root allows that few properties and their values. -/
theorem validateDescriptorPayload_restrict_iff (hdistinct : d.observationSchema.distinctKeys = true)
    (h : postInit a = .ok d) (hv : d.validateArguments (.obj fields) = .ok n) (keys : List Str) :
    validateDescriptorPayload d (.obj (restrict keys fields)) false true =
        .ok (restrict keys n) ↔
      Reconstructs d ∧
        bound (entriesOf d.inputSchema) "minProperties" 0 ≤ (restrict keys fields).length ∧
        validateScalarEnum (entriesOf d.inputSchema) (.obj (restrict keys n)) = .ok () := by
  have hvalue : ∀ {d : ToolDescriptor} {v n}, d.validateArguments v = .ok n ↔
      normalizeValue d.inputSchema v = .ok (.obj n) := by
    intro d v n
    rw [ToolDescriptor.validateArguments, bind_eq_ok]
    constructor
    · rintro ⟨normalized, hnormalized, hroot⟩
      split at hroot
      · cases hroot
        exact hnormalized
      · cases hroot
    · exact fun h => ⟨_, h, rfl⟩
  have hrestrict := fun m => @normalizeValue_restrict _ _ fields n d.inputSchema keys (hvalue.1 hv) m
  rw [validateDescriptorPayload_eq_ok]
  simp only [payloadValidator_eq_ok hdistinct h, hvalue]
  constructor
  · rintro ⟨_, ⟨hreconstructs, rfl⟩, hnormal⟩
    obtain ⟨hmin, henum, -⟩ := (hrestrict _).1 hnormal
    exact ⟨hreconstructs, hmin, henum⟩
  · rintro ⟨hreconstructs, hmin, henum⟩
    exact ⟨_, ⟨hreconstructs, rfl⟩, (hrestrict _).2 ⟨hmin, henum, rfl⟩⟩

end Restriction

section Samples

/-- A schema of one required text, with a least number of properties. -/
def titleSchema (least : Int) : Json :=
  .obj [("type", .str "object"),
    ("properties", .obj [("title", .obj [("type", .str "string"), ("maxLength", .int 80)])]),
    ("required", .arr [.str "title"]), ("additionalProperties", .bool false),
    ("minProperties", .int least)]

def titleDescriptor (least : Int) : ToolDescriptor :=
  (collectionDescriptor "items").withInput (titleSchema least)

def titleArgs (least : Int) : DescriptorArgs :=
  { (titleDescriptor least).storedArgs with transferableObservationFields := [] }

theorem validateDescriptorPayload_restrict_iff_none :
    @validateDescriptorPayload asciiText plainDates (titleDescriptor 0) (.obj []) false true =
        .ok [] ↔
      @Reconstructs asciiText (titleDescriptor 0) ∧ (0 : Int) ≤ 0 ∧
        @validateScalarEnum asciiText (entriesOf (titleDescriptor 0).inputSchema) (.obj []) =
          .ok () :=
  @validateDescriptorPayload_restrict_iff asciiText plainDates (titleArgs 0) (titleDescriptor 0)
    [("title", .str "Milk")] [("title", .str "Milk")] (by decide) (by decide +kernel)
    (by decide +kernel) []

/-- A least number of properties refuses the arguments that are given so far. -/
theorem few_arguments_refused : ¬∀ (a : DescriptorArgs) (d : ToolDescriptor)
    (fields n : List (Str × Json)) (keys : List Str), d.observationSchema.distinctKeys = true →
      @postInit asciiText a = .ok d →
      @ToolDescriptor.validateArguments asciiText plainDates d (.obj fields) = .ok n →
      @validateDescriptorPayload asciiText plainDates d (.obj (restrict keys fields)) false true =
        .ok (restrict keys n) := by
  intro h
  have hnone := h (titleArgs 1) (titleDescriptor 1) [("title", .str "Milk")]
    [("title", .str "Milk")] [] (by decide) (by decide +kernel) (by decide +kernel)
  exact absurd hnone (by decide +kernel)

end Samples

end HardyAI.Core
