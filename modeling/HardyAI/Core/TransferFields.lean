import HardyAI.Skills.DescriptorStorage

/-! Under which transferable fields of a descriptor an observed value falls. -/

open Foundation Foundation.Json HardyAI.Skills

namespace HardyAI.Core

section Matching

/-- `_pointer_pattern_matches`. -/
def pointerPatternMatches (pattern pointer : Str) : Bool :=
  (rawSegments pattern).length ≤ (rawSegments pointer).length &&
    segmentsMatch (rawSegments pattern) (rawSegments pointer)

/-- `_matching_transfer_field`. -/
def matchingTransferField (fields : List TransferableObservationField) (sourcePointer : Str)
    (crossDomain : Bool) : Option TransferableObservationField :=
  fields.find? fun f => (!crossDomain || f.scope = text "cross_domain") &&
    pointerPatternMatches f.pattern sourcePointer

/-- No pointer falls under two of the fields, and their order decides nothing. -/
structure Unambiguous (fields : List TransferableObservationField) : Prop where
  single : ∀ pointer, (fields.filter fun f => pointerPatternMatches f.pattern pointer).length ≤ 1
  order : ∀ fields', fields'.Perm fields → ∀ pointer crossDomain,
    matchingTransferField fields' pointer crossDomain =
      matchingTransferField fields pointer crossDomain

/-- Where fields are compiled, a property that is named by a star is the only property. -/
def Separable (d : ToolDescriptor) : Prop :=
  compiled d.toolId = true →
    ∀ name ∈ (propertiesOf (entriesOf d.observationSchema)).map Prod.fst, name = star →
      (propertiesOf (entriesOf d.observationSchema)).length = 1

end Matching

section Lists

variable {α : Type} {p : α → Bool} {xs ys : List α}

theorem filter_length_le_one (h : xs.Pairwise fun a b => ¬(p a = true ∧ p b = true)) :
    (xs.filter p).length ≤ 1 := by
  induction h with
  | nil => exact Nat.zero_le 1
  | @cons a xs hfirst hrest ih =>
    by_cases ha : p a = true
    · have hnone : xs.filter p = [] :=
        List.filter_eq_nil_iff.2 fun b hb hpb => hfirst b hb ⟨ha, hpb⟩
      rw [List.filter_cons_of_pos ha, hnone]
      exact le_rfl
    · rw [List.filter_cons_of_neg ha]
      exact ih

/-- Where at most one element passes, any order finds it. -/
theorem find?_eq_of_perm (h : (xs.filter p).length ≤ 1) (hperm : ys.Perm xs) :
    ys.find? p = xs.find? p := by
  have hfiltered : ys.filter p = xs.filter p := by
    have hsame := hperm.filter p
    cases hxs : xs.filter p with
    | nil =>
      rw [hxs] at hsame
      exact hsame.eq_nil
    | cons a rest =>
      rw [hxs, List.length_cons] at h
      obtain rfl : rest = [] := List.eq_nil_of_length_eq_zero (by omega)
      rw [hxs] at hsame
      exact List.perm_singleton.1 hsame
  rw [← List.head?_filter, ← List.head?_filter, hfiltered]

theorem foldlM_invariant {σ : Type} {Inv : σ → Prop} {f : σ → α → Except PyError σ}
    (hstep : ∀ s a s', Inv s → f s a = .ok s' → Inv s') {s s' : σ} (hs : Inv s)
    (h : xs.foldlM f s = .ok s') : Inv s' := by
  induction xs generalizing s with
  | nil =>
    cases h
    exact hs
  | cons a xs ih =>
    rw [List.foldlM_cons, bind_eq_ok] at h
    obtain ⟨middle, hfirst, hrest⟩ := h
    exact ih (hstep s a middle hs hfirst) hrest

end Lists

section Overlap

variable [PythonText] {schema : Json} {raw other pointer left right : List Str}

omit [PythonText] in
theorem patternSegment_star {segment : Str} (h : patternSegment star = .ok segment) :
    segment = star := by
  have hstar : patternSegment star = .ok star := by decide
  exact Except.ok.inj (h.symm.trans hstar)

theorem itemReached_cases {most : Int} {segment : Str} (h : itemReached most segment = .ok ()) :
    segment = star ∨ allDigits segment = true := by
  unfold itemReached at h
  split at h
  · next hstar => exact .inl hstar
  · simp only [bind_eq_ok, require_eq_ok] at h
    obtain ⟨_, hdigits, -⟩ := h
    exact .inr hdigits

/-- Two segments that match the same segment of a pointer, at the same place of the schema. -/
theorem child_eq_of_matches {t : SchemaType} {entries : List (Str × Json)} {x y r l m : Str}
    {child child' : Json} (hl : patternSegment x = .ok l) (hm : patternSegment y = .ok m)
    (hxr : x = star ∨ x = r) (hyr : y = star ∨ y = r)
    (hchild : schemaChild t entries l = .ok child) (hchild' : schemaChild t entries m = .ok child') :
    segmentsCompatible l m = true ∧ child = child' := by
  have hsame : l ≠ star → m ≠ star → l = m := by
    intro hlstar hmstar
    have hx : x = r := hxr.resolve_left fun hx => hlstar (patternSegment_star (hx ▸ hl))
    have hy : y = r := hyr.resolve_left fun hy => hmstar (patternSegment_star (hy ▸ hm))
    rw [hx] at hl
    rw [hy] at hm
    exact Except.ok.inj (hl.symm.trans hm)
  cases t with
  | object =>
    simp only [schemaChild, schemaAtProperty] at hchild hchild'
    split at hchild
    · split at hchild
      · cases hchild
      · next hlookup hlstar =>
        cases hchild
        split at hchild'
        · split at hchild'
          · cases hchild'
          · next hlookup' hmstar =>
            cases hchild'
            obtain rfl := hsame hlstar hmstar
            rw [hlookup, Option.some.injEq] at hlookup'
            exact ⟨by simp [segmentsCompatible], hlookup'⟩
        · cases hchild'
    · cases hchild
  | array =>
    simp only [schemaChild, schemaAtItem, bind_eq_ok, Except.ok.injEq] at hchild hchild'
    obtain ⟨_, hreached, rfl⟩ := hchild
    obtain ⟨_, hreached', rfl⟩ := hchild'
    refine ⟨?_, rfl⟩
    simp only [segmentsCompatible, Bool.or_eq_true, Bool.and_eq_true, decide_eq_true_eq]
    by_cases hlstar : l = star
    · by_cases hmstar : m = star
      · exact .inl (.inl (hlstar.trans hmstar.symm))
      · exact .inl (.inr ⟨hlstar, (itemReached_cases hreached').resolve_left hmstar⟩)
    · by_cases hmstar : m = star
      · exact .inr ⟨hmstar, (itemReached_cases hreached).resolve_left hlstar⟩
      · exact .inl (.inl (hsame hlstar hmstar))
  | string | integer | number | boolean | null => cases hchild

/-- Two patterns that fit the schema and match one pointer overlap. -/
theorem patternsOverlap_of_matches (hleft : raw.mapM patternSegment = .ok left)
    (hright : other.mapM patternSegment = .ok right) {x y : Json}
    (hx : schemaAtPointer schema left = .ok x) (hy : schemaAtPointer schema right = .ok y)
    (hraw : segmentsMatch raw pointer = true) (hother : segmentsMatch other pointer = true)
    (hlength : raw.length ≤ pointer.length) (hlength' : other.length ≤ pointer.length) :
    patternsOverlap left right = true := by
  induction raw generalizing other pointer left right schema with
  | nil =>
    cases hleft
    rfl
  | cons a raw ih =>
    cases other with
    | nil =>
      obtain rfl : [] = right := Except.ok.inj hright
      rw [patternsOverlap, List.zip_nil_right]
      rfl
    | cons b other =>
      cases pointer with
      | nil => cases hlength
      | cons r pointer =>
        rw [List.mapM_cons, bind_eq_ok] at hleft hright
        obtain ⟨l, hl, hleft⟩ := hleft
        obtain ⟨m, hm, hright⟩ := hright
        obtain ⟨left, hlefts, hleft⟩ := bind_eq_ok.1 hleft
        obtain ⟨right, hrights, hright⟩ := bind_eq_ok.1 hright
        cases hleft
        cases hright
        simp only [segmentsMatch, List.zip_cons_cons, List.all_cons, Bool.and_eq_true,
          Bool.or_eq_true, decide_eq_true_eq] at hraw hother
        simp only [schemaAtPointer, bind_eq_ok] at hx hy
        obtain ⟨t, ht, child, hchild, hx⟩ := hx
        obtain ⟨t', ht', child', hchild', hy⟩ := hy
        obtain rfl : t = t' := Except.ok.inj (ht.symm.trans ht')
        obtain ⟨hcompatible, rfl⟩ :=
          child_eq_of_matches hl hm hraw.1 hother.1 hchild hchild'
        rw [patternsOverlap, List.zip_cons_cons, List.all_cons, Bool.and_eq_true]
        exact ⟨hcompatible, ih hlefts hrights hx hy hraw.2 hother.2
          (Nat.le_of_succ_le_succ hlength) (Nat.le_of_succ_le_succ hlength')⟩

end Overlap

section Fields

variable [PythonText] {schema : Json} {fields : List TransferableObservationField}
  {a : DescriptorArgs} {d : ToolDescriptor}

/-- No pointer falls under both fields. -/
def Apart (f g : TransferableObservationField) : Prop :=
  ∀ pointer, ¬(pointerPatternMatches f.pattern pointer = true ∧
    pointerPatternMatches g.pattern pointer = true)

omit [PythonText] in
theorem unambiguous_of_apart (h : fields.Pairwise Apart) : Unambiguous fields := by
  have hsingle : ∀ pointer,
      (fields.filter fun f => pointerPatternMatches f.pattern pointer).length ≤ 1 :=
    fun pointer => filter_length_le_one (h.imp fun hapart => hapart pointer)
  refine ⟨hsingle, fun fields' hperm pointer crossDomain => find?_eq_of_perm ?_ hperm⟩
  refine le_trans ?_ (hsingle pointer)
  rw [← List.countP_eq_length_filter, ← List.countP_eq_length_filter]
  refine List.countP_mono_left fun f _ hf => ?_
  rw [Bool.and_eq_true] at hf
  exact hf.2

/-- The fields that the loop has found, with the segments of each: they fit the schema, and no two
of them overlap. -/
structure Placed (schema : Json)
    (found : List TransferableObservationField × List (List Str)) : Prop where
  segments : ∀ f ∈ found.1, ∃ s ∈ found.2, decodePointer f.pattern = .ok s ∧
    ∃ x, schemaAtPointer schema s = .ok x
  apart : found.1.Pairwise Apart

omit [PythonText] in
theorem rawSegments_of_decodePointer {pattern : Str} {segments : List Str}
    (h : decodePointer pattern = .ok segments) :
    (rawSegments pattern).mapM patternSegment = .ok segments := by
  simp only [decodePointer, bind_eq_ok] at h
  obtain ⟨_, -, _, -, h⟩ := h
  exact h

theorem overlap_of_not_apart {f g : TransferableObservationField} {s s' : List Str} {x y : Json}
    (hf : decodePointer f.pattern = .ok s) (hx : schemaAtPointer schema s = .ok x)
    (hg : decodePointer g.pattern = .ok s') (hy : schemaAtPointer schema s' = .ok y)
    {pointer : Str} (hfp : pointerPatternMatches f.pattern pointer = true)
    (hgp : pointerPatternMatches g.pattern pointer = true) : patternsOverlap s s' = true := by
  rw [pointerPatternMatches, Bool.and_eq_true, decide_eq_true_eq] at hfp hgp
  exact patternsOverlap_of_matches (rawSegments_of_decodePointer hf)
    (rawSegments_of_decodePointer hg) hx hy hfp.2 hgp.2 hfp.1 hgp.1

theorem Placed.add {found found' : List TransferableObservationField × List (List Str)}
    {raw : TransferableObservationField ⊕ Json} (h : Placed schema found)
    (hadd : addTransferField schema found raw = .ok found') : Placed schema found' := by
  simp only [addTransferField, bind_eq_ok, require_eq_ok, Except.ok.injEq] at hadd
  obtain ⟨field, -, segments, hsegments, x, hx, _, hnew, rfl⟩ := hadd
  refine ⟨fun f hf => ?_, ?_⟩
  · rcases List.mem_append.1 hf with hold | hlast
    · obtain ⟨s, hs, hrest⟩ := h.segments f hold
      exact ⟨s, List.mem_append_left _ hs, hrest⟩
    · rw [List.mem_singleton.1 hlast]
      exact ⟨segments, List.mem_append_right _ (List.mem_singleton_self _), hsegments, x, hx⟩
  · refine List.pairwise_append.2 ⟨h.apart, List.pairwise_singleton _ _, fun f hf g hg => ?_⟩
    rw [List.mem_singleton.1 hg]
    obtain ⟨s, hs, hdecoded, y, hy⟩ := h.segments f hf
    rintro pointer ⟨hfp, hgp⟩
    have hoverlap := overlap_of_not_apart hsegments hx hdecoded hy hgp hfp
    rw [Bool.not_eq_true', List.any_eq_false] at hnew
    exact hnew s hs hoverlap

omit [PythonText] in
theorem rawSegments_escapeName (name : Str) :
    rawSegments (text "/" ++ escapeName name) = [escapeName name] := by
  have hpattern : text "/" ++ escapeName name = slash :: escapeName name := rfl
  rw [hpattern, rawSegments, List.drop_one, List.tail_cons,
    splitOn_of_notMem (slash_notMem_escapeName name)]

omit [PythonText] in
/-- A compiled field matches by the first segment of a pointer. -/
theorem matches_escapeName {name pointer : Str} {r : Str} {rest : List Str}
    (hpointer : rawSegments pointer = r :: rest) :
    pointerPatternMatches (text "/" ++ escapeName name) pointer = true ↔
      name = star ∨ escapeName name = r := by
  have hstar : escapeName name = star ↔ name = star := by
    have htext : escapeName star = star := by decide
    exact ⟨fun h => escapeName_inj (h.trans htext.symm), fun h => h ▸ htext⟩
  simp only [pointerPatternMatches, rawSegments_escapeName, hpointer, segmentsMatch,
    List.length_cons, List.length_nil, List.zip_cons_cons, List.zip_nil_left, List.all_cons,
    List.all_nil, Bool.and_true, Bool.and_eq_true, Bool.or_eq_true, decide_eq_true_eq, hstar]
  constructor
  · exact fun h => h.2
  · exact fun h => ⟨by omega, h⟩

omit [PythonText] in
theorem apart_escapeName {name other : Str} (hname : name ≠ star) (hother : other ≠ star)
    (hne : name ≠ other) {scope scope' : Str} :
    Apart ⟨text "/" ++ escapeName name, scope⟩ ⟨text "/" ++ escapeName other, scope'⟩ := by
  rintro pointer ⟨hmatch, hmatch'⟩
  cases hpointer : rawSegments pointer with
  | nil =>
    rw [pointerPatternMatches, rawSegments_escapeName, hpointer] at hmatch
    cases hmatch
  | cons r rest =>
    have hsame := ((matches_escapeName hpointer).1 hmatch).resolve_left hname
    have hsame' := ((matches_escapeName hpointer).1 hmatch').resolve_left hother
    exact hne (escapeName_inj (hsame.trans hsame'.symm))

omit [PythonText] in
/-- Compiled fields are apart where no name is a star, or there is one name only. -/
theorem apart_compiledFields {keys : Option (List Str)} {properties : List (Str × Json)}
    (hdistinct : (properties.map Prod.fst).Nodup)
    (hstar : ∀ name ∈ properties.map Prod.fst, name = star → properties.length = 1) :
    (compiledFields keys properties).Pairwise Apart := by
  rw [compiledFields, List.pairwise_map]
  by_cases hlone : properties.length = 1
  · obtain ⟨p, rfl⟩ := List.length_eq_one_iff.1 hlone
    exact List.pairwise_singleton _ _
  · rw [List.Nodup, List.pairwise_map] at hdistinct
    refine hdistinct.imp_of_mem fun {p q} hp hq hne => ?_
    have hnot : ∀ r ∈ properties, r.1 ≠ star := fun r hr hr' =>
      hlone (hstar r.1 (List.mem_map_of_mem hr) hr')
    exact apart_escapeName (hnot p hp) (hnot q hq) hne

omit [PythonText] in
theorem eq_of_length_le_one {α : Type} {xs : List α} (h : xs.length ≤ 1) {x y : α} (hx : x ∈ xs)
    (hy : y ∈ xs) : x = y := by
  match xs, h with
  | [], _ => cases hx
  | [z], _ => rw [List.mem_singleton.1 hx, List.mem_singleton.1 hy]

omit [PythonText] in
/-- A name that is a star matches whatever another name does. -/
theorem not_unambiguous_compiledFields {keys : Option (List Str)}
    {properties : List (Str × Json)} {p q : Str × Json} (hp : p ∈ properties)
    (hq : q ∈ properties) (hstar : p.1 = star) (hother : q.1 ≠ star) :
    ¬Unambiguous (compiledFields keys properties) := by
  intro h
  have hpointer := rawSegments_escapeName q.1
  have hmem : ∀ r ∈ properties, r.1 = star ∨ r = q →
      (⟨text "/" ++ escapeName r.1, if keys.all fun ks => r.1 ∈ ks then "cross_domain"
        else "same_domain"⟩ : TransferableObservationField) ∈
        (compiledFields keys properties).filter fun f =>
          pointerPatternMatches f.pattern (text "/" ++ escapeName q.1) := by
    intro r hr hcase
    refine List.mem_filter.2 ⟨List.mem_map_of_mem hr, (matches_escapeName hpointer).2 ?_⟩
    rcases hcase with hcase | rfl
    · exact .inl hcase
    · exact .inr rfl
  have hsame := eq_of_length_le_one (h.single _) (hmem p hp (.inl hstar)) (hmem q hq (.inr rfl))
  have hpattern := List.append_cancel_left (congrArg TransferableObservationField.pattern hsame)
  exact hother ((escapeName_inj hpattern).symm.trans hstar)

omit [PythonText] in
theorem length_eq_one_of_stars {properties : List (Str × Json)} {p : Str × Json}
    (hdistinct : (properties.map Prod.fst).Nodup) (hp : p ∈ properties)
    (hstars : ∀ q ∈ properties, q.1 = star) : properties.length = 1 := by
  have hall : properties.map Prod.fst = List.replicate properties.length star := by
    refine List.eq_replicate_iff.2 ⟨List.length_map _, fun name hname => ?_⟩
    obtain ⟨q, hq, rfl⟩ := List.mem_map.1 hname
    exact hstars q hq
  rw [hall, List.nodup_replicate] at hdistinct
  have hpos := List.length_pos_of_mem hp
  omega

theorem unambiguous_transferFields_iff {toolId : Str}
    {raw : List (TransferableObservationField ⊕ Json)}
    (hdistinct : ((propertiesOf (entriesOf schema)).map Prod.fst).Nodup)
    (h : transferFields toolId schema raw = .ok fields) :
    Unambiguous fields ↔ (compiled toolId = true →
      ∀ name ∈ (propertiesOf (entriesOf schema)).map Prod.fst, name = star →
        (propertiesOf (entriesOf schema)).length = 1) := by
  simp only [transferFields, bind_eq_ok, require_eq_ok, decide_eq_true_eq] at h
  obtain ⟨found, hfound, -, -, h⟩ := h
  split at h
  · next keys htool =>
    have hcompiled : compiled toolId = true := by
      rw [compiled, htool]
      rfl
    cases h
    constructor
    · intro hunambiguous _ name hname hstar
      obtain ⟨p, hp, rfl⟩ := List.mem_map.1 hname
      by_contra hmany
      obtain ⟨q, hq, hother⟩ : ∃ q ∈ propertiesOf (entriesOf schema), q.1 ≠ star := by
        by_contra hnone
        push Not at hnone
        exact hmany (length_eq_one_of_stars hdistinct hp hnone)
      exact not_unambiguous_compiledFields hp hq hstar hother hunambiguous
    · intro hstar
      exact unambiguous_of_apart (apart_compiledFields hdistinct (hstar hcompiled))
  · next htool =>
    cases h
    have hplaced : Placed schema found :=
      foldlM_invariant (fun _ _ _ hs hadd => hs.add hadd)
        ⟨fun f hf => absurd hf List.not_mem_nil, List.Pairwise.nil⟩ hfound
    refine iff_of_true (unambiguous_of_apart hplaced.apart) fun hcompiled => ?_
    rw [compiled, htool] at hcompiled
    cases hcompiled

end Fields

/-- The transferable fields of a descriptor that the constructor accepts are told apart by every
pointer, in any order, exactly if no compiled property is named by a star beside others. -/
theorem unambiguous_iff_separable [PythonText] {a : DescriptorArgs} {d : ToolDescriptor}
    (hdistinct : d.observationSchema.distinctKeys = true) (h : postInit a = .ok d) :
    Unambiguous d.transferableObservationFields ↔ Separable d := by
  obtain ⟨-, hclosed, -⟩ := closed_of_postInit h
  obtain ⟨properties, hproperties, -, -⟩ := properties_of_closed hclosed.closed hclosed.object
  have hprops : propertiesOf (entriesOf d.observationSchema) = properties := by
    rw [propertiesOf, hproperties]
    rfl
  have hkeys : ((propertiesOf (entriesOf d.observationSchema)).map Prod.fst).Nodup := by
    rw [hprops]
    cases hschema : d.observationSchema with
    | obj entries =>
      rw [hschema] at hdistinct hproperties
      exact (distinctKeys_obj.1 ((distinctKeys_obj.1 hdistinct).2 _ (mem_of_lookup hproperties))).1
    | _ =>
      rw [hschema] at hproperties
      cases hproperties
  have hfields : transferFields d.toolId d.observationSchema a.transferableObservationFields =
      .ok d.transferableObservationFields := by
    simp only [postInit, bind_eq_ok, require_eq_ok, decide_eq_true_eq] at h
    obtain ⟨toolId, -, _, -, _, -, _, -, _, -, _, -, _, -, -, -, _, -, _, -, _, -, _, -, _, -, _, -,
      observation, -, _, -, _, -, -, -, fields, hfields, _, -, _, -, _, -, _, -, _, -, size, -, -,
      -, hd⟩ := h
    cases hd
    exact hfields
  exact unambiguous_transferFields_iff hkeys hfields

section Sample

/-- A descriptor of `lists.get_collection` that observes texts under the names. -/
def collectionOf (names : List Str) : ToolDescriptor :=
  { collectionDescriptor (text "*") with
    observationSchema := .obj [("type", .str "object"),
      ("properties", .obj (names.map fun name =>
        (name, .obj [("type", .str "string"), ("maxLength", .int 80)]))),
      ("required", .arr []), ("additionalProperties", .bool false)]
    transferableObservationFields := names.map fun name =>
      ⟨text "/" ++ escapeName name, "cross_domain"⟩ }

def collectionOfArgs (names : List Str) : DescriptorArgs :=
  { (collectionOf names).storedArgs with transferableObservationFields := [] }

theorem unambiguous_iff_separable_title :
    Unambiguous (collectionOf ["title", "items"]).transferableObservationFields := by
  refine (@unambiguous_iff_separable asciiText (collectionOfArgs ["title", "items"])
    (collectionOf ["title", "items"]) (by decide) (by decide +kernel)).2 fun _ name hname => ?_
  have hnames : ∀ name ∈ (propertiesOf (entriesOf
      (collectionOf ["title", "items"]).observationSchema)).map Prod.fst, name ≠ star := by decide
  exact fun hstar => absurd hstar (hnames name hname)

/-- A property named by a star beside another: a pointer to the other falls under both fields. -/
theorem star_field_matches_other : ¬∀ (a : DescriptorArgs) (d : ToolDescriptor),
    d.observationSchema.distinctKeys = true → @postInit asciiText a = .ok d →
      Unambiguous d.transferableObservationFields := by
  intro h
  have hunambiguous := h (collectionOfArgs ["*", "title"]) (collectionOf ["*", "title"])
    (by decide) (by decide +kernel)
  have hboth : ((collectionOf ["*", "title"]).transferableObservationFields.filter fun f =>
      pointerPatternMatches f.pattern (text "/title")).length = 2 := by decide
  have hsingle := hunambiguous.single (text "/title")
  rw [hboth] at hsingle
  omega

end Sample

end HardyAI.Core
