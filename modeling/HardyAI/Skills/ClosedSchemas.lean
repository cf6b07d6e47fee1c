import HardyAI.Skills.CanonicalForm
import HardyAI.Skills.Schemas

/-! What closing a schema writes, and that a closed schema is left as it is. -/

open Foundation Foundation.Json

namespace HardyAI.Skills

section Rewriting

/-- The rewritten schema differs from the schema under `keys` alone. -/
structure Rewrites (keys : List Str) (schema normalized : List (Str × Json)) : Prop where
  same : ∀ k, k ∉ keys → lookup normalized k = lookup schema k
  known : ∀ p ∈ normalized, p.1 ∈ keys ∨ p ∈ schema

variable {schema normalized : List (Str × Json)} {keys : List Str}

theorem Rewrites.refl (keys : List Str) (schema : List (Str × Json)) :
    Rewrites keys schema schema :=
  ⟨fun _ _ => rfl, fun _ hp => .inr hp⟩

theorem Rewrites.setField (h : Rewrites keys schema normalized) {k : Str} (hk : k ∈ keys)
    (x : Json) : Rewrites keys schema (setField normalized k x) := by
  refine ⟨fun k' hk' => ?_, fun p hp => ?_⟩
  · have hne : k' ≠ k := fun heq => hk' (heq ▸ hk)
    rw [lookup_setField_of_ne hne, h.same k' hk']
  · rcases mem_setField hp with hp | rfl
    · exact h.known p hp
    · exact .inl hk

theorem Rewrites.keysAllowed (h : Rewrites keys schema normalized) {t : SchemaType}
    (hkeys : ∀ k ∈ keys, k ∈ t.keys) (hallowed : keysAllowed t schema = true) :
    keysAllowed t normalized = true := by
  rw [Skills.keysAllowed, List.all_eq_true] at hallowed ⊢
  intro p hp
  rw [decide_eq_true_eq]
  rcases h.known p hp with hk | hp
  · exact List.mem_append_right _ (hkeys _ hk)
  · exact of_decide_eq_true (hallowed p hp)

theorem Rewrites.intOr (h : Rewrites keys schema normalized) {k : Str} (hk : k ∉ keys)
    (default : Int) : intOr normalized k default = intOr schema k default := by
  rw [Skills.intOr, Skills.intOr, h.same k hk]

theorem Rewrites.schemaType (h : Rewrites keys schema normalized) (hk : text "type" ∉ keys) :
    schemaType normalized = schemaType schema := by
  rw [Skills.schemaType, Skills.schemaType, h.same _ hk]

variable [PythonText]

theorem Rewrites.enumItems (h : Rewrites keys schema normalized) (hk : text "enum" ∉ keys) :
    enumItems normalized = enumItems schema := by
  rw [Skills.enumItems, Skills.enumItems, h.same _ hk]

end Rewriting

section Bodies

variable {close : Json → Except PyError Json} {schema normalized : List (Str × Json)}

theorem closedProperties_spec {properties closed : List (Str × Json)}
    (hclose : ∀ x y, close x = .ok y → close y = .ok y)
    (h : closedProperties close properties = .ok closed) :
    closed.map Prod.fst = (properties.filter fun p => p.1 ≠ []).map Prod.fst ∧
      closedProperties close closed = .ok closed := by
  have hagain : ∀ ps qs : List (Str × Json), (∀ p ∈ ps, p.1 ≠ []) →
      (ps.mapM fun p => do
        let child ← close p.2
        .ok (p.1, child)) = .ok qs →
      qs.map Prod.fst = ps.map Prod.fst ∧ (∀ q ∈ qs, q.1 ≠ []) ∧
        (qs.mapM fun p => do
          let child ← close p.2
          .ok (p.1, child)) = .ok qs := by
    intro ps
    induction ps with
    | nil =>
      intro qs _ hqs
      cases hqs
      exact ⟨rfl, fun q hq => absurd hq List.not_mem_nil, rfl⟩
    | cons p ps ih =>
      intro qs hnamed hqs
      simp only [List.mapM_cons, bind_eq_ok, pure, Except.pure] at hqs
      obtain ⟨q, ⟨child, hchild, hq⟩, rest, hrest, hqs⟩ := hqs
      cases hq
      cases hqs
      obtain ⟨hkeys, hnamed', hmap⟩ := ih rest (fun p hp => hnamed p (List.mem_cons_of_mem _ hp))
        hrest
      refine ⟨by rw [List.map_cons, List.map_cons, hkeys], ?_, ?_⟩
      · exact List.forall_mem_cons.2 ⟨hnamed p List.mem_cons_self, hnamed'⟩
      · simp only [List.mapM_cons, bind_eq_ok, pure, Except.pure]
        exact ⟨(p.1, child), ⟨child, hclose _ _ hchild, rfl⟩, rest, hmap, rfl⟩
  have hnamed : ∀ p ∈ properties.filter (fun p => p.1 ≠ []), p.1 ≠ [] := fun p hp =>
    of_decide_eq_true (List.mem_filter.1 hp).2
  obtain ⟨hkeys, hnamed', hmap⟩ := hagain _ closed hnamed h
  have hall : closed.filter (fun p => p.1 ≠ []) = closed :=
    List.filter_eq_self.2 fun q hq => decide_eq_true (hnamed' q hq)
  exact ⟨hkeys, by rw [closedProperties, hall, hmap]⟩

theorem requiredValid_congr {properties closed : List (Str × Json)}
    (h : closed.map Prod.fst = properties.map Prod.fst) (required : List Json) :
    requiredValid closed required = requiredValid properties required := by
  have hany : ∀ (ps : List (Str × Json)) (r : Json),
      (ps.any fun p => r = .str p.1) = (ps.map Prod.fst).any fun k => r = .str k := by
    intro ps r
    rw [List.any_map]
    rfl
  simp only [requiredValid, hany, h]

variable [PythonText]

omit [PythonText] in
theorem itemsAt_eq_ok {fields : List (Str × Json)} {key : Str} {code : String}
    {items : List Json} : itemsAt fields key code = .ok items ↔
      lookup fields key = some (.arr items) := by
  unfold itemsAt
  split <;> simp_all

omit [PythonText] in
theorem objectAt_eq_ok {fields members : List (Str × Json)} {key : Str} {code : String} :
    objectAt fields key code = .ok members ↔ lookup fields key = some (.obj members) := by
  unfold objectAt
  split <;> simp_all

theorem closedObject_again (hclose : ∀ x y, close x = .ok y → close y = .ok y)
    (h : closedObject close schema = .ok normalized) :
    Rewrites ["properties", "required"] schema normalized ∧
      closedObject close normalized = .ok normalized := by
  simp only [closedObject, bind_eq_ok, require_eq_ok, objectAt_eq_ok, itemsAt_eq_ok] at h
  obtain ⟨properties, hproperties, -, hcount, -, hopen, required, hrequired, -, hvalid, -, hbounds,
    closed, hclosed, -, hlength, -, hnames, h⟩ := h
  obtain ⟨hkeys, hagain⟩ := closedProperties_spec hclose hclosed
  rw [decide_eq_true_eq] at hlength
  have hall : (properties.filter fun p => p.1 ≠ []) = properties := by
    refine List.filter_eq_self.2 (List.length_filter_eq_length_iff.1 ?_)
    have hsame := congrArg List.length hkeys
    rw [List.length_map, List.length_map] at hsame
    rw [← hsame, hlength]
  rw [hall] at hkeys
  have hne : text "properties" ≠ text "required" := by decide
  have hrewrites : Rewrites ["properties", "required"] schema normalized := by
    cases h
    exact ((Rewrites.refl _ schema).setField List.mem_cons_self _).setField
      (List.mem_cons_of_mem _ List.mem_cons_self) _
  have hprops : lookup normalized "properties" = some (.obj closed) := by
    cases h
    rw [lookup_setField_of_ne hne, lookup_setField]
  have hreq : lookup normalized "required" = some (.arr required) := by
    cases h
    exact lookup_setField _ _ _
  have hsame : setField (setField normalized "properties" (.obj closed)) "required"
      (.arr required) = normalized := by
    have hfirst : setField normalized "properties" (.obj closed) = normalized := by
      refine setField_eq_self (fun p hp hk => ?_) (by rw [hprops]; rfl)
      cases h
      rcases mem_setField hp with hp | rfl
      · exact eq_of_mem_setField hp hk
      · exact absurd hk hne.symm
    rw [hfirst]
    refine setField_eq_self (fun p hp hk => ?_) (by rw [hreq]; rfl)
    cases h
    exact eq_of_mem_setField hp hk
  refine ⟨hrewrites, ?_⟩
  simp only [closedObject, bind_eq_ok, require_eq_ok, objectAt_eq_ok, itemsAt_eq_ok]
  refine ⟨closed, hprops, (), ?_, (), ?_, required, hreq, (), ?_, (), ?_, closed, hagain, (),
    decide_eq_true rfl, (), hnames, by rw [hsame]⟩
  · rwa [hlength]
  · rwa [hrewrites.same _ (by decide)]
  · rwa [requiredValid_congr hkeys]
  · rw [propertyBoundsValid, hrewrites.intOr (by decide), hrewrites.intOr (by decide), hlength]
    exact hbounds

omit [PythonText] in
theorem closedArray_again (hclose : ∀ x y, close x = .ok y → close y = .ok y)
    (h : closedArray close schema = .ok normalized) :
    Rewrites ["items"] schema normalized ∧ closedArray close normalized = .ok normalized := by
  unfold closedArray at h
  split at h
  · cases h
  · next items _ =>
    simp only [bind_eq_ok, require_eq_ok] at h
    obtain ⟨-, hbounds, -, hunique, closed, hclosed, h⟩ := h
    have hrewrites : Rewrites ["items"] schema normalized := by
      cases h
      exact (Rewrites.refl _ schema).setField List.mem_cons_self _
    have hitems : lookup normalized "items" = some closed := by
      cases h
      exact lookup_setField _ _ _
    have hsame : setField normalized "items" closed = normalized := by
      refine setField_eq_self (fun p hp hk => ?_) (by rw [hitems]; rfl)
      cases h
      exact eq_of_mem_setField hp hk
    refine ⟨hrewrites, ?_⟩
    rw [closedArray, hitems]
    simp only [bind_eq_ok, require_eq_ok]
    refine ⟨(), ?_, (), ?_, closed, hclose _ _ hclosed, by rw [hsame]⟩
    · rw [arrayBoundsValid, hrewrites.intOr (by decide), hrewrites.same _ (by decide)]
      exact hbounds
    · rwa [hrewrites.same _ (by decide)]

/-- The inferred length is the one that is read the next time. -/
theorem maxLength_again {enum : Option (List Json)} {maximum : Option Json}
    (h : maxLength schema enum = .ok (maximum, normalized)) :
    Rewrites ["maxLength"] schema normalized ∧
      maxLength normalized enum = .ok (maximum, normalized) := by
  have hwritten := h
  unfold maxLength at h
  split at h
  · next items hnone =>
    simp only [bind_eq_ok] at h
    obtain ⟨texts, htexts, h⟩ := h
    cases h
    refine ⟨(Rewrites.refl _ schema).setField List.mem_cons_self _, ?_⟩
    unfold maxLength
    rw [lookup_setField]
    rfl
  · cases h
    exact ⟨Rewrites.refl _ schema, hwritten⟩

theorem closedString_again {enum : Option (List Json)}
    (h : closedString schema enum = .ok normalized) :
    Rewrites ["maxLength"] schema normalized ∧
      closedString normalized enum = .ok normalized := by
  simp only [closedString, bind_eq_ok, require_eq_ok] at h
  obtain ⟨⟨maximum, rewritten⟩, hmaximum, -, hbounds, valid, hvalid, -, hformat, h⟩ := h
  cases h
  obtain ⟨hrewrites, hagain⟩ := maxLength_again hmaximum
  refine ⟨hrewrites, ?_⟩
  simp only [closedString, bind_eq_ok, require_eq_ok]
  refine ⟨(maximum, rewritten), hagain, (), ?_, valid, ?_, (), hformat, rfl⟩
  · unfold stringBoundsValid at hbounds ⊢
    rwa [hrewrites.intOr (by decide)]
  · rwa [hrewrites.same _ (by decide)]

omit [PythonText] in
theorem closedNumber_eq {enum : Option (List Json)} (h : closedNumber schema enum = .ok normalized) :
    normalized = schema := by
  unfold closedNumber at h
  split at h
  · simp only [bind_eq_ok] at h
    obtain ⟨_, -, h⟩ := h
    exact (Except.ok.inj h).symm
  · simp only [bind_eq_ok] at h
    obtain ⟨_, -, h⟩ := h
    exact (Except.ok.inj h).symm

/-- The keys that the checks for a type write. -/
def SchemaType.written : SchemaType → List Str
  | .object => ["properties", "required"]
  | .array => ["items"]
  | .string => ["maxLength"]
  | .integer | .number | .boolean | .null => []

omit [PythonText] in
theorem SchemaType.written_subset (t : SchemaType) : ∀ k ∈ t.written, k ∈ t.keys := by
  cases t <;> decide

omit [PythonText] in
theorem SchemaType.written_apart (t : SchemaType) : ∀ k ∈ commonKeys, k ∉ t.written := by
  cases t <;> decide

theorem closedBody_again {t : SchemaType} {enum : Option (List Json)}
    (hclose : ∀ x y, close x = .ok y → close y = .ok y)
    (h : closedBody close t schema enum = .ok normalized) :
    Rewrites t.written schema normalized ∧
      closedBody close t normalized enum = .ok normalized := by
  have hsame : normalized = schema →
      closedBody close t schema enum = closedBody close t normalized enum := fun heq => by rw [heq]
  cases t with
  | object => exact closedObject_again hclose h
  | array => exact closedArray_again hclose h
  | string => exact closedString_again h
  | integer | number =>
    have heq := closedNumber_eq h
    exact ⟨heq ▸ Rewrites.refl _ _, hsame heq ▸ h⟩
  | boolean | null =>
    have heq : normalized = schema := (Except.ok.inj h).symm
    exact ⟨heq ▸ Rewrites.refl _ _, hsame heq ▸ h⟩

/-- A closed schema is closed as it is. -/
theorem closedSchema_again {levels : Nat} {schema closed : Json}
    (h : closedSchema levels schema = .ok closed) :
    closedSchema levels closed = .ok closed ∧ freezeJson closed = .ok closed := by
  induction levels generalizing schema closed with
  | zero => cases h
  | succ levels ih =>
    cases schema with
    | obj schema =>
      simp only [closedSchema, bind_eq_ok, require_eq_ok] at h
      obtain ⟨t, htype, -, hkeys, -, hdescription, enum, henum, normalized, hbody, frozen, hfrozen,
        size, hsize, -, hbound, h⟩ := h
      cases h
      obtain rfl := freezeFields_eq_ok hfrozen
      obtain ⟨hrewrites, hagain⟩ := closedBody_again (fun x y hxy => (ih hxy).1) hbody
      have hapart := t.written_apart
      refine ⟨?_, by rw [freezeJson, hfrozen]; rfl⟩
      simp only [closedSchema, bind_eq_ok, require_eq_ok]
      refine ⟨t, ?_, (), hrewrites.keysAllowed t.written_subset hkeys, (), ?_, enum, ?_, frozen,
        hagain, frozen, hfrozen, size, hsize, (), hbound, rfl⟩
      · rw [hrewrites.schemaType (hapart _ (by decide)), htype]
      · rw [hrewrites.same _ (hapart _ (by decide)), hdescription]
      · rw [hrewrites.enumItems (hapart _ (by decide)), henum]
    | _ => cases h

end Bodies

end HardyAI.Skills
