import HardyAI.Skills.ClosedSchemas
import HardyAI.Skills.PlainText
import HardyAI.Skills.TransferPatterns

/-! What a stored descriptor is read back as. -/

open Foundation Foundation.Json

namespace HardyAI.Skills

section Fields

/-- A mapping has the keys that it was written with. -/
theorem hasKeys_obj {keys : List Str} {fields : List (Str × Json)}
    (h : fields.map Prod.fst = keys) : hasKeys keys (.obj fields) = true := by
  rw [hasKeys, Bool.and_eq_true, List.all_eq_true, List.all_eq_true]
  constructor
  · intro p hp
    exact decide_eq_true (h ▸ List.mem_map_of_mem hp)
  · intro k hk
    rw [Option.isSome_iff_ne_none]
    exact fun hnone => lookup_eq_none.1 hnone (h ▸ hk)

variable [PythonText] {schema : Json}

def TransferableObservationField.toDict (field : TransferableObservationField) : Json :=
  .obj [("pattern", .str field.pattern), ("scope", .str field.scope)]

theorem fold_scope {scope : Str} (h : scope ∈ transferScopes) : fold scope = scope :=
  fold_of_table (by decide) h

theorem textOr_str (s : Str) : textOr (some (.str s)) [] = .ok s := by
  by_cases hs : s = []
  · subst hs
    rfl
  · rw [textOr, truthy, if_pos (decide_eq_true hs), pyStr]

theorem transferFieldOf_toDict {field field' : TransferableObservationField} :
    transferFieldOf schema field.toDict = .ok field' ↔
      fold field.scope ∈ transferScopes ∧
        (∃ segments, decodePointer field.pattern = .ok segments ∧
          ∃ child, schemaAtPointer schema segments = .ok child) ∧
        field' = ⟨field.pattern, fold field.scope⟩ := by
  have hkeys : hasKeys ["pattern", "scope"] field.toDict = true := hasKeys_obj rfl
  have hpattern : lookup (entriesOf field.toDict) "pattern" = some (.str field.pattern) := rfl
  have hscope : lookup (entriesOf field.toDict) "scope" = some (.str field.scope) := by
    simp only [TransferableObservationField.toDict, entriesOf, lookup, List.find?]
    rfl
  simp only [transferFieldOf, bind_eq_ok, require_eq_ok, hkeys, hpattern, hscope, textOr_str,
    map_eq_ok, Except.ok.injEq, decide_eq_true_eq]
  constructor
  · rintro ⟨-, -, _, rfl, _, ⟨_, rfl, rfl⟩, -, hmem, segments, hsegments, child, hchild, rfl⟩
    exact ⟨hmem, ⟨segments, hsegments, child, hchild⟩, rfl⟩
  · rintro ⟨hmem, ⟨segments, hsegments, child, hchild⟩, rfl⟩
    exact ⟨(), trivial, _, rfl, _, ⟨_, rfl, rfl⟩, (), hmem, segments, hsegments, child, hchild, rfl⟩

/-- The field with its scope in the form in which scopes are read. -/
def TransferableObservationField.folded (field : TransferableObservationField) :
    TransferableObservationField :=
  ⟨field.pattern, fold field.scope⟩

/-- A field that was taken from some value is taken from its own dictionary too, where its scope
folds to one of the scopes. -/
theorem addTransferField_again {raw : TransferableObservationField ⊕ Json}
    {found found' : List TransferableObservationField × List (List Str)}
    (h : addTransferField schema found raw = .ok found') :
    ∃ field, found'.1 = found.1 ++ [field] ∧ ∀ fields found'',
      addTransferField schema (fields, found.2) (.inr field.toDict) = .ok found'' ↔
        fold field.scope ∈ transferScopes ∧ found'' = (fields ++ [field.folded], found'.2) := by
  simp only [addTransferField, bind_eq_ok, require_eq_ok] at h
  obtain ⟨field, -, segments, hsegments, child, hchild, -, hapart, h⟩ := h
  cases h
  refine ⟨field, rfl, fun fields found'' => ?_⟩
  simp only [addTransferField, transferField, bind_eq_ok, require_eq_ok, transferFieldOf_toDict]
  constructor
  · rintro ⟨_, ⟨hscope, -, rfl⟩, segments', hsegments', -, -, -, -, h⟩
    obtain rfl : segments = segments' := Except.ok.inj (hsegments.symm.trans hsegments')
    exact ⟨hscope, (Except.ok.inj h).symm⟩
  · rintro ⟨hscope, rfl⟩
    exact ⟨field.folded, ⟨hscope, ⟨segments, hsegments, child, hchild⟩, rfl⟩, segments, hsegments,
      child, hchild, (), hapart, rfl⟩

theorem addTransferFields_again {raw : List (TransferableObservationField ⊕ Json)}
    {found found' : List TransferableObservationField × List (List Str)}
    (h : raw.foldlM (addTransferField schema) found = .ok found') :
    ∃ fields, found'.1 = found.1 ++ fields ∧ ∀ others found'',
      (fields.map fun f => .inr f.toDict).foldlM (addTransferField schema) (others, found.2)
          = .ok found'' ↔
        (∀ f ∈ fields, fold f.scope ∈ transferScopes) ∧
          found'' = (others ++ fields.map fun f => f.folded, found'.2) := by
  induction raw generalizing found with
  | nil =>
    cases h
    refine ⟨[], (List.append_nil _).symm, fun others found'' => ?_⟩
    simp only [List.map_nil, List.foldlM_nil, List.append_nil, pure, Except.pure, Except.ok.injEq,
      List.not_mem_nil, false_implies, implies_true, true_and, eq_comm]
  | cons value raw ih =>
    rw [List.foldlM_cons, bind_eq_ok] at h
    obtain ⟨middle, hstep, hrest⟩ := h
    obtain ⟨field, hfield, hagain⟩ := addTransferField_again hstep
    obtain ⟨fields, hfields, hfold⟩ := ih hrest
    refine ⟨field :: fields, by rw [hfields, hfield, List.append_assoc]; rfl,
      fun others found'' => ?_⟩
    rw [List.map_cons, List.foldlM_cons, bind_eq_ok, List.forall_mem_cons]
    constructor
    · rintro ⟨_, hfirst, hothers⟩
      obtain ⟨hscope, rfl⟩ := (hagain _ _).1 hfirst
      obtain ⟨hscopes, rfl⟩ := (hfold _ _).1 hothers
      refine ⟨⟨hscope, hscopes⟩, ?_⟩
      rw [List.append_assoc]
      rfl
    · rintro ⟨⟨hscope, hscopes⟩, rfl⟩
      refine ⟨_, (hagain _ _).2 ⟨hscope, rfl⟩, (hfold _ _).2 ⟨hscopes, ?_⟩⟩
      rw [List.append_assoc]
      rfl

end Fields

section Compiled

variable [PythonText] {schema : Json} {name : Str}

theorem schemaAtPointer_name (hobject : schemaType (entriesOf schema) = .ok .object)
    {child : Json} : schemaAtPointer schema [name] = .ok child ↔
      lookup (propertiesOf (entriesOf schema)) name = some child ∧ name ≠ star := by
  rw [schemaAtPointer, hobject]
  show (schemaAtProperty (propertiesOf (entriesOf schema)) name >>= _) = _ ↔ _
  rw [bind_eq_ok]
  unfold schemaAtProperty
  split
  · next found hfound =>
    rw [hfound, Option.some.injEq]
    split
    · next hstar =>
      exact ⟨fun ⟨_, h, _⟩ => (by cases h), fun h => absurd hstar h.2⟩
    · next hstar =>
      refine ⟨fun ⟨_, h, h'⟩ => ?_, fun h => ⟨child, by rw [h.1], rfl⟩⟩
      cases h
      cases h'
      exact ⟨rfl, hstar⟩
  · next hnone =>
    rw [hnone]
    exact ⟨fun ⟨_, h, _⟩ => (by cases h), fun h => nomatch h.1⟩

theorem patternsOverlap_names {others : List Str} (hname : name ≠ star) (hnew : name ∉ others)
    (hothers : star ∉ others) :
    (others.map fun other => [other]).any (fun previous => patternsOverlap [name] previous)
      = false := by
  rw [List.any_map, List.any_eq_false]
  intro other hother
  have hne : name ≠ other := fun h => hnew (h ▸ hother)
  have hstar : other ≠ star := fun h => hothers (h ▸ hother)
  simp [patternsOverlap, segmentsCompatible, hne, hname, hstar]

/-- One compiled field is read back if and only if a pattern can name its property. -/
theorem addTransferField_compiled (hobject : schemaType (entriesOf schema) = .ok .object)
    (hname : name ≠ []) {child : Json}
    (hchild : lookup (propertiesOf (entriesOf schema)) name = some child) {scope : Str}
    (hscope : scope ∈ transferScopes) {others : List Str} (hnew : name ∉ others)
    (hothers : star ∉ others) {fields : List TransferableObservationField}
    {found : List TransferableObservationField × List (List Str)} :
    addTransferField schema (fields, others.map fun other => [other])
        (.inr (TransferableObservationField.toDict ⟨text "/" ++ escapeName name, scope⟩))
        = .ok found ↔
      pointable name = true ∧ found = (fields ++ [⟨text "/" ++ escapeName name, scope⟩],
        (others ++ [name]).map fun other => [other]) := by
  simp only [addTransferField, transferField, bind_eq_ok, require_eq_ok, transferFieldOf_toDict,
    decodePointer_escapeName hname, fold_scope hscope, pointable, Bool.and_eq_true,
    decide_eq_true_eq, Bool.not_eq_true']
  constructor
  · rintro ⟨field, ⟨-, ⟨segments, ⟨rfl, hdash, hstars⟩, reached, hreached⟩, rfl⟩, h⟩
    simp only [decodePointer_escapeName hname] at h
    obtain ⟨_, ⟨rfl, -⟩, -, -, -, -, h⟩ := h
    cases h
    refine ⟨⟨⟨((schemaAtPointer_name hobject).1 hreached).2, hdash⟩, hstars⟩, ?_⟩
    rw [List.map_append]
    rfl
  · rintro ⟨⟨⟨hstar, hdash⟩, hstars⟩, rfl⟩
    have hreached : schemaAtPointer schema [name] = .ok child :=
      (schemaAtPointer_name hobject).2 ⟨hchild, hstar⟩
    refine ⟨_, ⟨hscope, ⟨[name], ⟨rfl, hdash, hstars⟩, child, hreached⟩, rfl⟩, [name], ?_, child,
      hreached, (), ?_, ?_⟩
    · exact (decodePointer_escapeName hname).2 ⟨rfl, hdash, hstars⟩
    · exact patternsOverlap_names hstar hnew hothers
    · rw [List.map_append]
      rfl

theorem addTransferFields_compiled (hobject : schemaType (entriesOf schema) = .ok .object)
    {keys : Option (List Str)} {properties : List (Str × Json)} {others : List Str}
    (hnamed : ∀ p ∈ properties, p.1 ≠ [] ∧
      ∃ child, lookup (propertiesOf (entriesOf schema)) p.1 = some child)
    (hdistinct : (others ++ properties.map Prod.fst).Nodup) (hothers : star ∉ others)
    {fields : List TransferableObservationField}
    {found : List TransferableObservationField × List (List Str)} :
    ((compiledFields keys properties).map fun f => .inr f.toDict).foldlM (addTransferField schema)
        (fields, others.map fun other => [other]) = .ok found ↔
      (∀ p ∈ properties, pointable p.1 = true) ∧
        found = (fields ++ compiledFields keys properties,
          (others ++ properties.map Prod.fst).map fun other => [other]) := by
  induction properties generalizing fields others with
  | nil =>
    simp only [compiledFields, List.map_nil, List.foldlM_nil, List.append_nil, pure, Except.pure,
      Except.ok.injEq, List.not_mem_nil, false_implies, implies_true, true_and, eq_comm]
  | cons p properties ih =>
    obtain ⟨⟨hname, child, hchild⟩, hnamed⟩ := List.forall_mem_cons.1 hnamed
    rw [List.map_cons, List.append_cons] at hdistinct
    have hnew : p.1 ∉ others := fun h =>
      List.disjoint_of_nodup_append (List.Nodup.of_append_left hdistinct) h List.mem_cons_self
    have hscope : (if keys.all fun ks => p.1 ∈ ks then text "cross_domain" else "same_domain") ∈
        transferScopes := by
      split <;> decide
    have hfields : compiledFields keys (p :: properties) =
        ⟨text "/" ++ escapeName p.1, if keys.all fun ks => p.1 ∈ ks then "cross_domain"
          else "same_domain"⟩ :: compiledFields keys properties := rfl
    rw [hfields, List.map_cons, List.foldlM_cons, bind_eq_ok, List.forall_mem_cons]
    constructor
    · rintro ⟨middle, hstep, hrest⟩
      obtain ⟨hpoint, rfl⟩ :=
        (addTransferField_compiled hobject hname hchild hscope hnew hothers).1 hstep
      have hstars : star ∉ others ++ [p.1] := by
        simp only [pointable, Bool.and_eq_true, decide_eq_true_eq] at hpoint
        rw [List.mem_append, List.mem_singleton, not_or]
        exact ⟨hothers, fun h => hpoint.1.1 h.symm⟩
      obtain ⟨hall, rfl⟩ := (ih hnamed hdistinct hstars).1 hrest
      refine ⟨⟨hpoint, hall⟩, ?_⟩
      simp only [List.map_cons, List.append_assoc, List.singleton_append]
    · rintro ⟨⟨hpoint, hall⟩, rfl⟩
      have hstars : star ∉ others ++ [p.1] := by
        simp only [pointable, Bool.and_eq_true, decide_eq_true_eq] at hpoint
        rw [List.mem_append, List.mem_singleton, not_or]
        exact ⟨hothers, fun h => hpoint.1.1 h.symm⟩
      refine ⟨_, (addTransferField_compiled hobject hname hchild hscope hnew hothers).2
        ⟨hpoint, rfl⟩, (ih hnamed hdistinct hstars).2 ⟨hall, ?_⟩⟩
      simp only [List.map_cons, List.append_assoc, List.singleton_append]

end Compiled

section RoundTrip

variable [PythonText] {a : DescriptorArgs} {d : ToolDescriptor}

def compiled (toolId : Str) : Bool := (initialCrossDomainTransferKeys.lookup toolId).isSome

/-- The dictionaries of the fields can be read: each property can be pointed to, for a tool with
compiled fields; else each scope folds to one of the scopes. -/
def readableFields (toolId : Str) (schema : Json) (fields : List TransferableObservationField) :
    Bool :=
  if compiled toolId then (propertiesOf (entriesOf schema)).all fun p => pointable p.1
  else fields.all fun f => fold f.scope ∈ transferScopes

/-- What the dictionaries of the fields are read as. -/
def readFields (toolId : Str) (fields : List TransferableObservationField) :
    List TransferableObservationField :=
  if compiled toolId then fields else fields.map fun f => f.folded

/-- The properties of a closed schema have names, and there are at most 64 of them. -/
theorem properties_of_closed {levels : Nat} {schema closed : Json}
    (h : closedSchema levels schema = .ok closed)
    (hobject : schemaType (entriesOf closed) = .ok .object) :
    ∃ properties, lookup (entriesOf closed) "properties" = some (.obj properties) ∧
      properties.length ≤ 64 ∧ ∀ p ∈ properties, p.1 ≠ [] := by
  have hagain := (closedSchema_again h).1
  cases levels with
  | zero => cases h
  | succ levels =>
    cases closed with
    | obj fields =>
      simp only [closedSchema, bind_eq_ok, require_eq_ok] at hagain
      obtain ⟨t, ht, -, -, -, -, enum, -, normalized, hbody, frozen, hfrozen, -, -, -, -, hsame⟩ :=
        hagain
      obtain rfl : t = .object := Except.ok.inj (ht.symm.trans hobject)
      simp only [closedBody, closedObject, bind_eq_ok, require_eq_ok, objectAt_eq_ok,
        decide_eq_true_eq] at hbody
      obtain ⟨properties, hproperties, -, hcount, -, -, required, -, -, -, -, -, closed, hclosed, -,
        hlength, -⟩ := hbody
      refine ⟨properties, hproperties, hcount, fun p hp => ?_⟩
      have hnames := mapM_length hclosed
      have hall := List.length_filter_eq_length_iff.1 (hnames.symm.trans hlength) p hp
      exact of_decide_eq_true hall
    | _ => cases hagain

theorem transferFields_again {toolId : Str} {schema : Json}
    {raw : List (TransferableObservationField ⊕ Json)}
    {fields fields' : List TransferableObservationField} {levels : Nat}
    (hclosed : closedSchema levels schema = .ok schema)
    (hobject : schemaType (entriesOf schema) = .ok .object)
    (hdistinct : schema.distinctKeys = true)
    (h : transferFields toolId schema raw = .ok fields) :
    transferFields toolId schema (fields.map fun f => .inr f.toDict) = .ok fields' ↔
      readableFields toolId schema fields = true ∧ fields' = readFields toolId fields := by
  obtain ⟨properties, hproperties, hcount, hnamed⟩ := properties_of_closed hclosed hobject
  have hprops : propertiesOf (entriesOf schema) = properties := by
    rw [propertiesOf, hproperties]
    rfl
  have hkeys : (properties.map Prod.fst).Nodup := by
    cases schema with
    | obj entries =>
      exact (distinctKeys_obj.1 ((distinctKeys_obj.1 hdistinct).2 _ (mem_of_lookup hproperties))).1
    | _ => cases hproperties
  simp only [transferFields, bind_eq_ok, require_eq_ok, decide_eq_true_eq] at h ⊢
  obtain ⟨found, hfound, -, hlength, h⟩ := h
  split at h
  · next keys htool =>
    cases h
    have hcompiled : compiled toolId = true := by rw [compiled, htool]; rfl
    rw [readableFields, readFields, if_pos hcompiled, if_pos hcompiled, hprops,
      List.all_eq_true]
    have hread := @addTransferFields_compiled _ schema hobject keys properties []
      (fun p hp => ⟨hnamed p hp, p.2, by rw [hprops]; exact lookup_of_mem hkeys hp⟩)
      (by simpa using hkeys) List.not_mem_nil []
    constructor
    · rintro ⟨found', hfold, -, -, hsame⟩
      exact ⟨(hread.1 hfold).1, (Except.ok.inj hsame).symm⟩
    · rintro ⟨hall, rfl⟩
      refine ⟨_, hread.2 ⟨hall, rfl⟩, (), ?_, rfl⟩
      simpa [compiledFields] using hcount
  · next htool =>
    cases h
    have hfree : ¬compiled toolId = true := by rw [compiled, htool]; exact Bool.false_ne_true
    rw [readableFields, readFields, if_neg hfree, if_neg hfree]
    simp only [List.all_eq_true, decide_eq_true_eq]
    obtain ⟨read, hread, hagain⟩ := addTransferFields_again hfound
    rw [List.nil_append] at hread
    rw [hread] at hlength ⊢
    constructor
    · rintro ⟨found', hfold, -, -, hsame⟩
      obtain ⟨hscopes, rfl⟩ := (hagain [] found').1 hfold
      exact ⟨hscopes, (Except.ok.inj hsame).symm⟩
    · rintro ⟨hscopes, rfl⟩
      refine ⟨_, (hagain [] _).2 ⟨hscopes, rfl⟩, (), ?_, rfl⟩
      simpa using hlength

omit [PythonText] in
theorem member_eq_ok {α : Type} {value : α → Str} {all : List α} {s : Str} {code : String} {x : α} :
    member value all s code = .ok x ↔ all.find? (fun y => value y = s) = some x := by
  unfold member
  split
  · next y hy => rw [hy, Except.ok.injEq, Option.some.injEq]
  · next hnone =>
    rw [hnone]
    exact ⟨fun h => (by cases h), fun h => (by cases h)⟩

omit [PythonText] in
theorem checked_eq_ok {check : Str → Bool} {s : Str} {code : String}
    {t : { s : Str // check s = true }} : checked check s code = .ok t ↔ t.val = s := by
  unfold checked
  split
  · next hvalid =>
    rw [Except.ok.injEq]
    exact ⟨fun h => h ▸ rfl, fun h => Subtype.ext h.symm⟩
  · next hinvalid =>
    exact ⟨fun h => (by cases h), fun h => absurd (h ▸ t.property) hinvalid⟩

omit [PythonText] in
theorem bounded_int {most : Int} (n : { n : Int // 1 ≤ n ∧ n ≤ most }) (code : String) :
    bounded most (.int n) code = .ok n := by
  rw [bounded, dif_pos n.property]

/-- The arguments that a stored descriptor is read as. -/
def ToolDescriptor.storedArgs (d : ToolDescriptor) : DescriptorArgs :=
  { toolId := d.toolId, skillId := d.skillId, contractVersion := .int d.contractVersion
    purpose := d.purpose, inputSchema := d.inputSchema, observationSchema := d.observationSchema
    effect := d.effect.value, approvalRule := d.approvalRule.value
    approvalConditions := d.approvalConditions.map .str, sensitivity := d.sensitivity.value
    persistence := d.persistence.value, idempotency := d.idempotency.value
    effectCardinality := d.effectCardinality.value
    transferableObservationFields := d.transferableObservationFields.map fun f => .inr f.toDict
    runtimeDependencies := d.runtimeDependencies.map .str
    timeoutSeconds := .int d.timeoutSeconds, maxResultItems := .int d.maxResultItems
    maxObservationChars := .int d.maxObservationChars
    legacyIntents := d.legacyIntents.map .str, interactive := .bool d.interactive }

omit [PythonText] in
theorem ToolDescriptor.keys_stored (d : ToolDescriptor) :
    (entriesOf d.toStorageDict).map Prod.fst = descriptorKeys := rfl

omit [PythonText] in
theorem ToolDescriptor.lookup_stored (d : ToolDescriptor) (i : Nat) {k : Str} {x : Json}
    (h : (entriesOf d.toStorageDict)[i]? = some (k, x)) :
    lookup (entriesOf d.toStorageDict) k = some x := by
  have hkeys : descriptorKeys.Nodup := by decide +kernel
  exact lookup_of_mem (d.keys_stored ▸ hkeys) (List.mem_of_getElem? h)

omit [PythonText] in
theorem ToolDescriptor.valueAt_stored (d : ToolDescriptor) (i : Nat) {k : Str} {x : Json}
    (h : (entriesOf d.toStorageDict)[i]? = some (k, x)) :
    valueAt (entriesOf d.toStorageDict) k = x := by
  rw [valueAt, d.lookup_stored i h]
  rfl

theorem ToolDescriptor.foldedAt_stored (d : ToolDescriptor) (i : Nat) {k s : Str}
    (h : (entriesOf d.toStorageDict)[i]? = some (k, .str s)) (hs : fold s = s) :
    foldedAt (entriesOf d.toStorageDict) k = .ok s := by
  rw [foldedAt, d.valueAt_stored i h, pyStr]
  exact congrArg Except.ok hs

theorem ToolDescriptor.fold_values (d : ToolDescriptor) :
    fold d.effect.value = d.effect.value ∧ fold d.approvalRule.value = d.approvalRule.value ∧
      fold d.sensitivity.value = d.sensitivity.value ∧
      fold d.persistence.value = d.persistence.value ∧
      fold d.idempotency.value = d.idempotency.value ∧
      fold d.effectCardinality.value = d.effectCardinality.value := by
  refine ⟨fold_of_plain ?_, fold_of_plain ?_, fold_of_plain ?_, fold_of_plain ?_, fold_of_plain ?_,
    fold_of_plain ?_⟩
  · cases d.effect <;> exact List.all_eq_true.1 (by decide)
  · cases d.approvalRule <;> exact List.all_eq_true.1 (by decide)
  · cases d.sensitivity <;> exact List.all_eq_true.1 (by decide)
  · cases d.persistence <;> exact List.all_eq_true.1 (by decide)
  · cases d.idempotency <;> exact List.all_eq_true.1 (by decide)
  · cases d.effectCardinality <;> exact List.all_eq_true.1 (by decide)

theorem fromMapping_stored {skillId : Option Str} (hskill : ∀ s ∈ skillId, fold s = d.skillId)
    (hinput : freezeJson d.inputSchema = .ok d.inputSchema)
    (hobservation : freezeJson d.observationSchema = .ok d.observationSchema) :
    fromMapping d.toStorageDict skillId = postInit d.storedArgs := by
  have hkeys : hasKeys descriptorKeys d.toStorageDict = true := hasKeys_obj d.keys_stored
  obtain ⟨heffect, hrule, hsensitivity, hpersistence, hidempotency, hcardinality⟩ := d.fold_values
  have hdeclared : foldItem (.str d.skillId) = .ok d.skillId :=
    foldItem_str _ (fold_of_isSkillId d.skillId_valid)
  have howner : (skillId.all fun s => decide (d.skillId = fold s)) = true := by
    cases skillId with
    | none => rfl
    | some s => exact decide_eq_true (hskill s rfl).symm
  have hlist : ∀ {k : Str} {items : List Json} (code : String),
      lookup (entriesOf d.toStorageDict) k = some (.arr items) →
      itemsAt (entriesOf d.toStorageDict) k code = .ok items := fun _ h => itemsAt_eq_ok.2 h
  have htext : ∀ (i : Nat) {k s : Str}, (entriesOf d.toStorageDict)[i]? = some (k, .str s) →
      pyStr (valueAt (entriesOf d.toStorageDict) k) = .ok s := fun i _ _ h => by
    rw [d.valueAt_stored i h, pyStr]
  simp only [fromMapping, hkeys, d.valueAt_stored 1 rfl, hdeclared, hlist _ (d.lookup_stored 8 rfl),
    hlist _ (d.lookup_stored 13 rfl), hlist _ (d.lookup_stored 14 rfl),
    hlist _ (d.lookup_stored 18 rfl), htext 0 rfl, htext 3 rfl, d.valueAt_stored 4 rfl,
    d.valueAt_stored 5 rfl, hinput, hobservation, d.foldedAt_stored 6 rfl heffect,
    d.foldedAt_stored 7 rfl hrule, d.foldedAt_stored 9 rfl hsensitivity,
    d.foldedAt_stored 10 rfl hpersistence, d.foldedAt_stored 11 rfl hidempotency,
    d.foldedAt_stored 12 rfl hcardinality, d.valueAt_stored 2 rfl, d.valueAt_stored 15 rfl,
    d.valueAt_stored 16 rfl, d.valueAt_stored 17 rfl, d.valueAt_stored 19 rfl]
  change (require (skillId.all fun s => decide (d.skillId = fold s)) _ >>= fun _ => _) = _
  rw [howner]
  show postInit _ = _
  congr 1
  rw [List.map_map]
  rfl

omit [PythonText] in
theorem ToolDescriptor.find_values (d : ToolDescriptor) :
    Effect.all.find? (fun e => e.value = d.effect.value) = some d.effect ∧
      ApprovalRule.all.find? (fun r => r.value = d.approvalRule.value) = some d.approvalRule ∧
      Sensitivity.all.find? (fun s => s.value = d.sensitivity.value) = some d.sensitivity ∧
      Persistence.all.find? (fun p => p.value = d.persistence.value) = some d.persistence ∧
      Idempotency.all.find? (fun i => i.value = d.idempotency.value) = some d.idempotency ∧
      EffectCardinality.all.find? (fun c => c.value = d.effectCardinality.value) =
        some d.effectCardinality := by
  refine ⟨?_, ?_, ?_, ?_, ?_, ?_⟩
  · cases d.effect <;> decide
  · cases d.approvalRule <;> decide
  · cases d.sensitivity <;> decide
  · cases d.persistence <;> decide
  · cases d.idempotency <;> decide
  · cases d.effectCardinality <;> decide

theorem foldItems_table {most : Nat} {table : List Str} {items : List Json} {code : String}
    {folded : List Str} (htable : table.all (fun s => s.all isPlain) = true)
    (h : foldItems most (· ∈ table) items code = .ok folded) :
    foldItems most (· ∈ table) (folded.map .str) code = .ok folded :=
  foldItems_again (fun _ hs => fold_of_table htable (of_decide_eq_true hs)) h

/-- A schema that is closed already. -/
structure Closed (schema : Json) : Prop where
  closed : closedSchema 9 schema = .ok schema
  frozen : freezeJson schema = .ok schema
  object : schemaType (entriesOf schema) = .ok .object

/-- A descriptor of which the size is allowed. -/
def ToolDescriptor.Fits (d : ToolDescriptor) : Prop :=
  ∃ size, canonicalBytes d.toStorageDict = .ok size ∧ size ≤ 65536

theorem closed_of_postInit (h : postInit a = .ok d) :
    Closed d.inputSchema ∧ Closed d.observationSchema ∧ d.Fits := by
  simp only [postInit, bind_eq_ok, require_eq_ok, decide_eq_true_eq] at h
  obtain ⟨_, -, _, -, _, -, _, -, _, -, _, -, _, -, -, -, _, -, _, -, _, -, _, -, _, -, input, hinput,
    observation, hobservation, _, hinputType, _, hobservationType, -, ⟨rfl, rfl⟩, _, -, _, -, _, -,
    _, -, _, -, _, -, size, hsize, -, hbound, h⟩ := h
  cases h
  exact ⟨⟨(closedSchema_again hinput).1, (closedSchema_again hinput).2, hinputType⟩,
    ⟨(closedSchema_again hobservation).1, (closedSchema_again hobservation).2, hobservationType⟩,
    size, hsize, hbound⟩

def ToolDescriptor.withInput (d : ToolDescriptor) (schema : Json) : ToolDescriptor :=
  { d with inputSchema := schema }

/-- What the arguments of a stored descriptor are read as, where another closed schema stands for
its input schema. -/
def ToolDescriptor.reread (d : ToolDescriptor) (schema : Json) : ToolDescriptor :=
  { d with
    inputSchema := schema
    transferableObservationFields := readFields d.toolId d.transferableObservationFields }

theorem postInit_storedArgs (hdistinct : d.observationSchema.distinctKeys = true)
    (h : postInit a = .ok d) {schema : Json} (hschema : Closed schema) {d' : ToolDescriptor} :
    postInit (d.withInput schema).storedArgs = .ok d' ↔
      readableFields d.toolId d.observationSchema d.transferableObservationFields = true ∧
        (d.reread schema).Fits ∧ d' = d.reread schema := by
  obtain ⟨-, hobservationClosed, -⟩ := closed_of_postInit h
  simp only [postInit, bind_eq_ok, require_eq_ok, decide_eq_true_eq] at h
  obtain ⟨toolId, htool, skillId, hskill, version, hversion, purpose, hpurpose, effect, -, rule, -,
    conditions, hconditions, -, hagrees, sensitivity, -, persistence, -, idempotency, -,
    cardinality, -, interactive, -, input, hinput, observation, hobservation, inputType, hinputType,
    observationType, hobservationType, -, hroots, fields, hfields, dependencies, hdependencies,
    intents, hintents, timeout, -, items, -, chars, -, size, hsize, -, hbound, h⟩ := h
  have hfind := d.find_values
  cases h
  obtain ⟨heffect, hrule, hsensitivity, hpersistence, hidempotency, hcardinality⟩ := hfind
  have htransfer := fun fields' => @transferFields_again _ _ _ _ _ fields' _
    hobservationClosed.closed hobservationClosed.object hdistinct hfields
  have htoolAgain : ∀ code, checked isToolId (fold toolId.val) code = .ok toolId :=
    fun _ => checked_eq_ok.2 (fold_of_isToolId toolId.property).symm
  have hskillAgain : ∀ code, checked isSkillId (fold skillId.val) code = .ok skillId :=
    fun _ => checked_eq_ok.2 (fold_of_isSkillId skillId.property).symm
  have hpurposeAgain : ∀ code, checked (fun s => s ≠ [] && s.length ≤ 500)
      (squeeze (strip purpose.val)) code = .ok purpose := by
    intro code
    rw [checked_eq_ok] at hpurpose ⊢
    rw [hpurpose, strip_squeeze_strip, squeeze_squeeze]
  have hintentsAgain := foldItems_again (fun _ hs => fold_of_isToolId hs) hintents
  have hinteractive : ∀ code, boolean (.bool interactive) code = .ok interactive := fun _ => rfl
  simp only [postInit, ToolDescriptor.storedArgs, ToolDescriptor.withInput, bind_eq_ok,
    require_eq_ok, decide_eq_true_eq, htoolAgain, hskillAgain, bounded_int, hpurposeAgain,
    member_eq_ok.2 heffect, member_eq_ok.2 hrule, foldItems_table (by decide) hconditions, hagrees,
    member_eq_ok.2 hsensitivity, member_eq_ok.2 hpersistence, member_eq_ok.2 hidempotency,
    member_eq_ok.2 hcardinality, hinteractive, hschema.closed, hschema.object,
    hobservationClosed.closed, hobservationClosed.object, htransfer,
    foldItems_table (by decide) hdependencies, hintentsAgain, Except.ok.injEq, exists_eq_left']
  constructor
  · rintro ⟨-, -, -, -, _, ⟨hreadable, rfl⟩, size', hsize', -, hbound', h'⟩
    exact ⟨hreadable, ⟨size', hsize', hbound'⟩, h'.symm⟩
  · rintro ⟨hreadable, ⟨size', hsize', hbound'⟩, rfl⟩
    exact ⟨(), trivial, (), ⟨trivial, trivial⟩, _, ⟨hreadable, rfl⟩, size', hsize', (), hbound', rfl⟩

/-- Each field is read back from its dictionary as it is. -/
def ToolDescriptor.readable (d : ToolDescriptor) : Bool :=
  if compiled d.toolId then (propertiesOf (entriesOf d.observationSchema)).all fun p => pointable p.1
  else d.transferableObservationFields.all fun f => f.scope ∈ transferScopes

theorem readable_iff : d.readable = true ↔
    readableFields d.toolId d.observationSchema d.transferableObservationFields = true ∧
      readFields d.toolId d.transferableObservationFields = d.transferableObservationFields := by
  unfold ToolDescriptor.readable readableFields readFields
  split
  · rw [eq_self, and_true]
  · simp only [List.all_eq_true, decide_eq_true_eq]
    constructor
    · intro hscopes
      refine ⟨fun f hf => ?_, ?_⟩
      · rw [fold_scope (hscopes f hf)]
        exact hscopes f hf
      · conv_rhs => rw [← List.map_id d.transferableObservationFields]
        refine List.map_congr_left fun f hf => ?_
        rw [TransferableObservationField.folded, fold_scope (hscopes f hf)]
        rfl
    · rintro ⟨hfolds, hsame⟩ f hf
      rw [← hsame] at hf
      obtain ⟨g, hg, rfl⟩ := List.mem_map.1 hf
      exact hfolds g hg

/-- The dictionary of a descriptor is read back as the descriptor if and only if each of its
transferable fields is. -/
theorem fromMapping_toStorageDict_iff (hdistinct : d.observationSchema.distinctKeys = true)
    (h : postInit a = .ok d) :
    fromMapping d.toStorageDict none = .ok d ↔ d.readable = true := by
  obtain ⟨hinput, hobservation, hfits⟩ := closed_of_postInit h
  have hread := @postInit_storedArgs _ a d hdistinct h d.inputSchema hinput d
  rw [fromMapping_stored (fun s hs => absurd hs (Option.not_mem_none s)) hinput.frozen
    hobservation.frozen, readable_iff]
  constructor
  · intro hagain
    obtain ⟨hreadable, -, hsame⟩ := hread.1 hagain
    exact ⟨hreadable, (congrArg ToolDescriptor.transferableObservationFields hsame).symm⟩
  · rintro ⟨hreadable, hsame⟩
    have hreread : d.reread d.inputSchema = d := by
      rw [ToolDescriptor.reread, hsame]
    exact hread.2 ⟨hreadable, hreread.symm ▸ hfits, hreread.symm⟩

end RoundTrip

section Samples

/-- A descriptor of `lists.get_collection` that observes one text under a name. -/
def collectionDescriptor (name : Str) : ToolDescriptor where
  toolId := "lists.get_collection"
  skillId := "skill.lists"
  contractVersion := 1
  purpose := "Read a collection."
  inputSchema := .obj [("type", .str "object"), ("properties", .obj []), ("required", .arr []),
    ("additionalProperties", .bool false)]
  observationSchema := .obj [("type", .str "object"),
    ("properties", .obj [(name, .obj [("type", .str "string"), ("maxLength", .int 80)])]),
    ("required", .arr []), ("additionalProperties", .bool false)]
  effect := .read
  approvalRule := .none
  approvalConditions := []
  sensitivity := .privateData
  persistence := .standard
  idempotency := .notApplicable
  effectCardinality := .single
  transferableObservationFields := [⟨text "/" ++ escapeName name, "cross_domain"⟩]
  runtimeDependencies := []
  timeoutSeconds := 30
  maxResultItems := 1
  maxObservationChars := 1000
  legacyIntents := []
  interactive := true
  toolId_valid := by decide
  skillId_valid := by decide
  contractVersion_valid := firstVersion_valid

/-- The same without the fields, which are compiled. -/
def collectionArgs (name : Str) : DescriptorArgs :=
  { (collectionDescriptor name).storedArgs with transferableObservationFields := [] }

theorem fromMapping_toStorageDict_iff_slash :
    @fromMapping asciiText (collectionDescriptor "a/b").toStorageDict none =
        .ok (collectionDescriptor "a/b") ↔
      (collectionDescriptor "a/b").readable = true :=
  @fromMapping_toStorageDict_iff asciiText (collectionArgs "a/b") (collectionDescriptor "a/b")
    (by decide) (by decide +kernel)

/-- The pattern that is compiled for a property named with a star is refused when it is read. -/
theorem star_property_not_read : ¬∀ (a : DescriptorArgs) (d : ToolDescriptor),
    d.observationSchema.distinctKeys = true → @postInit asciiText a = .ok d →
      @fromMapping asciiText d.toStorageDict none = .ok d := by
  intro h
  have hread := h (collectionArgs "*") (collectionDescriptor "*") (by decide) (by decide +kernel)
  exact absurd hread (by decide +kernel)

end Samples

end HardyAI.Skills
