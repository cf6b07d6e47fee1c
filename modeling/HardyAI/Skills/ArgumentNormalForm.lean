import HardyAI.Skills.Arguments

/-! Arguments in their normal form are their own normal form. -/

open Foundation Foundation.Json

namespace HardyAI.Skills

section Dates

/-- The characters of a date and a time of UTC. -/
def isIsoChar (c : CodePoint) : Bool :=
  isNumeral c || c.val = 0x2D || c.val = 0x3A || c.val = 0x54 || c.val = 0x5A

theorem isIsoChar_val {c : CodePoint} (h : isIsoChar c = true) :
    0x2D ≤ c.val ∧ c.val ≤ 0x5A := by
  simp only [isIsoChar, isNumeral, Bool.or_eq_true, Bool.and_eq_true, decide_eq_true_eq] at h
  omega

theorem isSpace_of_isIsoChar {c : CodePoint} (h : isIsoChar c = true) : isSpace c = false := by
  have hval := isIsoChar_val h
  simp only [isSpace, Bool.or_eq_false_iff, Bool.and_eq_false_iff, decide_eq_false_iff_not,
    beq_eq_false_iff_ne]
  omega

theorem isAscii_of_isIsoChar {s : Str} (h : ∀ c ∈ s, isIsoChar c = true) : isAscii s = true := by
  rw [isAscii, List.all_eq_true]
  intro c hc
  have hval := isIsoChar_val (h c hc)
  rw [decide_eq_true_eq]
  omega

theorem isIsoChar_padded {width n : Nat} : ∀ c ∈ padded width n, isIsoChar c = true := by
  intro c hc
  rw [isIsoChar, isNumeral_padded hc]
  rfl

theorem isIsoChar_append {s t : Str} (hs : ∀ c ∈ s, isIsoChar c = true)
    (ht : ∀ c ∈ t, isIsoChar c = true) : ∀ c ∈ s ++ t, isIsoChar c = true := by
  intro c hc
  rcases List.mem_append.1 hc with hc | hc
  · exact hs c hc
  · exact ht c hc

theorem isIsoChar_isoDate (day : Nat) : ∀ c ∈ isoDate day, isIsoChar c = true := by
  have hdash : ∀ c ∈ text "-", isIsoChar c = true := List.all_eq_true.1 (by decide)
  exact isIsoChar_append (isIsoChar_append (isIsoChar_append (isIsoChar_append
    isIsoChar_padded hdash) isIsoChar_padded) hdash) isIsoChar_padded

theorem isIsoChar_isoTime (second : Nat) : ∀ c ∈ isoTime second, isIsoChar c = true := by
  have hcolon : ∀ c ∈ text ":", isIsoChar c = true := List.all_eq_true.1 (by decide)
  exact isIsoChar_append (isIsoChar_append (isIsoChar_append (isIsoChar_append
    isIsoChar_padded hcolon) isIsoChar_padded) hcolon) isIsoChar_padded

theorem isIsoChar_isoBody (t : Instant) : ∀ c ∈ isoBody t, isIsoChar c = true := by
  have hmark : ∀ c ∈ text "T", isIsoChar c = true := List.all_eq_true.1 (by decide)
  exact isIsoChar_append (isIsoChar_append (isIsoChar_isoDate _) hmark) (isIsoChar_isoTime _)

theorem endsWith_append (s after : Str) : endsWith (s ++ after) after = true :=
  List.isSuffixOf_iff_suffix.2 (List.suffix_append s after)

def wholeSeconds (t : Instant) : Instant := ⟨t.val - t.val % 1000000, t.floor_lt⟩

theorem wholeSeconds_mod (t : Instant) : (wholeSeconds t).val % 1000000 = 0 := by
  show (t.val - t.val % 1000000) % 1000000 = 0
  omega

theorem secondsText_eq (t : Instant) : secondsText t = isoBody (wholeSeconds t) ++ text "Z" := by
  have hiso : isoUtc (wholeSeconds t) = isoBody (wholeSeconds t) ++ text "+00:00" :=
    isoUtc_eq (wholeSeconds_mod t)
  have hlength : (isoBody (wholeSeconds t) ++ text "+00:00").length - 6 =
      (isoBody (wholeSeconds t)).length := by
    have hzone : (text "+00:00").length = 6 := by decide
    rw [List.length_append, hzone, Nat.add_sub_cancel]
  unfold secondsText
  dsimp only
  change (if endsWith (isoUtc (wholeSeconds t)) (text "+00:00") = true then
    (isoUtc (wholeSeconds t)).take ((isoUtc (wholeSeconds t)).length - 6) ++ text "Z"
    else isoUtc (wholeSeconds t)) = _
  rw [hiso, endsWith_append, if_pos rfl, hlength, List.take_left]

theorem isIsoChar_secondsText (t : Instant) : ∀ c ∈ secondsText t, isIsoChar c = true := by
  have hmark : ∀ c ∈ text "Z", isIsoChar c = true := List.all_eq_true.1 (by decide)
  rw [secondsText_eq]
  exact isIsoChar_append (isIsoChar_isoBody _) hmark

variable [DateText]

/-- A time in whole seconds of UTC is read back as it was written. -/
theorem normalizeDatetime_secondsText (t : Instant) :
    normalizeDatetime (secondsText t) = .ok (secondsText t) := by
  have hstrip : strip (secondsText t) = secondsText t :=
    strip_of_forall fun c hc => isSpace_of_isIsoChar (isIsoChar_secondsText t c hc)
  have hraw : (isoBody (wholeSeconds t) ++ text "Z").dropLast ++ text "+00:00" =
      isoUtc (wholeSeconds t) := by
    have hlast : (isoBody (wholeSeconds t) ++ text "Z").dropLast = isoBody (wholeSeconds t) :=
      List.dropLast_concat
    rw [hlast, isoUtc_eq (wholeSeconds_mod t)]
  have hrange : 0 ≤ ((wholeSeconds t).val : Int) ∧ ((wholeSeconds t).val : Int) < maxMicros := by
    have := (wholeSeconds t).isLt
    omega
  have hsame : wholeSeconds (wholeSeconds t) = wholeSeconds t := by
    ext
    show (wholeSeconds t).val - (wholeSeconds t).val % 1000000 = _
    rw [wholeSeconds_mod, Nat.sub_zero]
  unfold normalizeDatetime
  dsimp only
  rw [hstrip, secondsText_eq, endsWith_append, if_pos rfl, hraw,
    DateText.readDatetime_isoUtc _ (wholeSeconds_mod t)]
  dsimp only
  rw [dif_pos hrange]
  have hback : (⟨((wholeSeconds t).val : Int).toNat, by omega⟩ : Instant) = wholeSeconds t := by
    ext
    exact Int.toNat_natCast _
  rw [hback, secondsText_eq, hsame]

theorem normalizeDatetime_idem {s n : Str} (h : normalizeDatetime s = .ok n) :
    (∀ c ∈ n, isIsoChar c = true) ∧ normalizeDatetime n = .ok n := by
  unfold normalizeDatetime at h
  dsimp only at h
  split at h
  · cases h
  · cases h
  · split at h
    · cases h
      exact ⟨isIsoChar_secondsText _, normalizeDatetime_secondsText _⟩
    · cases h

theorem normalizeDate_idem {s n : Str} (h : normalizeDate s = .ok n) :
    (∀ c ∈ n, isIsoChar c = true) ∧ normalizeDate n = .ok n := by
  unfold normalizeDate at h
  split at h
  · cases h
  · next day _ =>
    cases h
    exact ⟨isIsoChar_isoDate day, by rw [normalizeDate, DateText.readDate_isoDate day]⟩

end Dates

section Values

variable [PythonText] [DateText] {schema : Json} {fields : List (Str × Json)}

omit [PythonText] [DateText] in
/-- Whether a required field is given depends on the names of the fields alone. -/
theorem requiredGiven_congr {fields' : List (Str × Json)}
    (h : fields'.map Prod.fst = fields.map Prod.fst) (entries : List (Str × Json)) :
    requiredGiven entries fields' = requiredGiven entries fields := by
  have hany : ∀ (fs : List (Str × Json)) (r : Json),
      (fs.any fun p => r = .str p.1) = (fs.map Prod.fst).any fun k => r = .str k := by
    intro fs r
    rw [List.any_map]
    rfl
  simp only [requiredGiven, hany, h]

theorem normalizeString_idem (hidem : ∀ s, PythonText.nfc (PythonText.nfc s) = PythonText.nfc s)
    (hascii : ∀ s, isAscii s = true → PythonText.nfc s = s) {entries : List (Str × Json)} {s : Str}
    {n : Json} (h : normalizeString entries s = .ok n) :
    ∃ m, n = .str m ∧ normalizeString entries m = .ok n := by
  simp only [normalizeString, bind_eq_ok, require_eq_ok] at h
  obtain ⟨m, hformat, -, hsize, ⟨⟩, henum, h⟩ := h
  cases h
  have hagain : formatted entries (PythonText.nfc m) = .ok m := by
    unfold formatted at hformat ⊢
    split at hformat
    · next hkind =>
      obtain ⟨hchars, hread⟩ := normalizeDatetime_idem hformat
      rw [if_pos hkind, hascii m (isAscii_of_isIsoChar hchars)]
      exact hread
    · next hkind =>
      rw [if_neg hkind]
      split at hformat
      · next hkind' =>
        obtain ⟨hchars, hread⟩ := normalizeDate_idem hformat
        rw [if_pos hkind', hascii m (isAscii_of_isIsoChar hchars)]
        exact hread
      · next hkind' =>
        cases hformat
        rw [if_neg hkind', hidem]
  refine ⟨m, rfl, ?_⟩
  simp only [normalizeString, bind_eq_ok, require_eq_ok]
  exact ⟨m, hagain, (), hsize, (), henum, rfl⟩

omit [DateText] in
theorem normalizeScalar_eq {t : SchemaType} {entries : List (Str × Json)} {v n : Json}
    (h : normalizeScalar t entries v = .ok n) : n = v := by
  simp only [normalizeScalar, bind_eq_ok] at h
  obtain ⟨-, -, -, -, -, -, -, -, h⟩ := h
  exact (Except.ok.inj h).symm

theorem normalizeElements_idem {items result : List Json}
    (hitems : ∀ x ∈ items, ∀ n, normalizeValue schema x = .ok n → normalizeValue schema n = .ok n)
    (h : normalizeElements schema items = .ok result) :
    result.length = items.length ∧ normalizeElements schema result = .ok result := by
  induction items generalizing result with
  | nil =>
    cases h
    exact ⟨rfl, rfl⟩
  | cons x items ih =>
    simp only [normalizeElements, bind_eq_ok] at h
    obtain ⟨y, hy, ys, hys, h⟩ := h
    cases h
    obtain ⟨hlength, hrest⟩ := ih (fun z hz => hitems z (List.mem_cons_of_mem x hz)) hys
    refine ⟨by rw [List.length_cons, List.length_cons, hlength], ?_⟩
    simp only [normalizeElements, bind_eq_ok]
    exact ⟨y, hitems x List.mem_cons_self y hy, ys, hrest, rfl⟩

theorem normalizeMembers_idem {properties result : List (Str × Json)}
    (hfields : ∀ p ∈ fields, ∀ schema n, normalizeValue schema p.2 = .ok n →
      normalizeValue schema n = .ok n)
    (h : normalizeMembers properties fields = .ok result) :
    result.map Prod.fst = fields.map Prod.fst ∧
      normalizeMembers properties result = .ok result := by
  induction fields generalizing result with
  | nil =>
    cases h
    exact ⟨rfl, rfl⟩
  | cons p fields ih =>
    obtain ⟨k, x⟩ := p
    simp only [normalizeMembers, bind_eq_ok] at h
    obtain ⟨y, hy, ys, hys, h⟩ := h
    cases h
    obtain ⟨hkeys, hrest⟩ := ih (fun q hq => hfields q (List.mem_cons_of_mem _ hq)) hys
    refine ⟨by rw [List.map_cons, List.map_cons, hkeys], ?_⟩
    simp only [normalizeMembers, bind_eq_ok]
    exact ⟨y, hfields (k, x) List.mem_cons_self _ y hy, ys, hrest, rfl⟩

/-- A value in its normal form is its own normal form. -/
theorem normalizeValue_idem (hidem : ∀ s, PythonText.nfc (PythonText.nfc s) = PythonText.nfc s)
    (hascii : ∀ s, isAscii s = true → PythonText.nfc s = s) {v n : Json}
    (h : normalizeValue schema v = .ok n) : normalizeValue schema n = .ok n := by
  induction v using Json.induct generalizing schema n with
  | obj fields ih =>
    have hrun := h
    simp only [normalizeValue, bind_eq_ok, require_eq_ok] at h
    obtain ⟨t, ht, -, hobject, -, hknown, -, hrequired, -, hcount, result, hresult, ⟨⟩, hscalar,
      frozen, hfrozen, h⟩ := h
    cases h
    obtain rfl := freezeFields_eq_ok hfrozen
    obtain ⟨hkeys, hagain⟩ := normalizeMembers_idem (fun p hp schema n => ih p hp) hresult
    have hall : (frozen.all fun p => (lookup (propertiesOf (entriesOf schema)) p.1).isSome) =
        true := by
      have hmap : ∀ fs : List (Str × Json),
          (fs.all fun p => (lookup (propertiesOf (entriesOf schema)) p.1).isSome) =
            (fs.map Prod.fst).all fun k => (lookup (propertiesOf (entriesOf schema)) k).isSome := by
        intro fs
        rw [List.all_map]
        rfl
      rw [hmap, hkeys, ← hmap]
      exact hknown
    have hlength : frozen.length = fields.length := by
      have := congrArg List.length hkeys
      rwa [List.length_map, List.length_map] at this
    simp only [normalizeValue, bind_eq_ok, require_eq_ok]
    refine ⟨t, ht, (), hobject, (), hall, (), ?_, (), ?_, frozen, hagain, (), hscalar, frozen,
      hfrozen, rfl⟩
    · rw [requiredGiven_congr hkeys]
      exact hrequired
    · rw [countValid, hlength]
      exact hcount
  | arr items ih =>
    simp only [normalizeValue, bind_eq_ok, require_eq_ok] at h
    obtain ⟨t, ht, -, harray, -, hsize, result, hresult, ⟨⟩, hunique, ⟨⟩, hscalar, h⟩ := h
    cases h
    obtain ⟨hlength, hagain⟩ := normalizeElements_idem (fun x hx n => ih x hx) hresult
    simp only [normalizeValue, bind_eq_ok, require_eq_ok]
    refine ⟨t, ht, (), harray, (), ?_, result, hagain, (), hunique, (), hscalar, rfl⟩
    rw [sizeValid, hlength]
    exact hsize
  | str s =>
    simp only [normalizeValue, bind_eq_ok, require_eq_ok] at h
    obtain ⟨t, ht, -, hstring, h⟩ := h
    obtain ⟨m, rfl, hagain⟩ := normalizeString_idem hidem hascii h
    simp only [normalizeValue, bind_eq_ok, require_eq_ok]
    exact ⟨t, ht, (), hstring, hagain⟩
  | _ =>
    have hrun := h
    simp only [normalizeValue, bind_eq_ok] at h
    obtain ⟨t, -, h⟩ := h
    rw [normalizeScalar_eq h] at hrun ⊢
    exact hrun

/-- `canonical_arguments_hash`. -/
def canonicalArgumentsHash (arguments : List (Str × Json)) (toolId : Str) :
    Except PyError Str := do
  let normalized ← normalizeIdentityArguments toolId arguments
  sha256 (.obj normalized)

/-- Arguments that were validated once are validated again to themselves, under the same hash and
the same operation. -/
theorem validateArguments_again (hidem : ∀ s, PythonText.nfc (PythonText.nfc s) = PythonText.nfc s)
    (hascii : ∀ s, isAscii s = true → PythonText.nfc s = s) (d : ToolDescriptor) (v : Json)
    (n : List (Str × Json)) (h : d.validateArguments v = .ok n) :
    d.validateArguments (.obj n) = .ok n ∧
      ∀ m, d.validateArguments (.obj n) = .ok m → ∀ toolId,
        canonicalArgumentsHash m toolId = canonicalArgumentsHash n toolId ∧
        ∀ root version ordinal, toolOperationId root toolId version ordinal m =
          toolOperationId root toolId version ordinal n := by
  have hagain : d.validateArguments (.obj n) = .ok n := by
    obtain ⟨normalized, hvalue, hroot⟩ := bind_eq_ok.1 h
    split at hroot
    · cases hroot
      exact bind_eq_ok.2 ⟨_, normalizeValue_idem hidem hascii hvalue, rfl⟩
    · cases hroot
  refine ⟨hagain, fun m hm toolId => ?_⟩
  obtain rfl : n = m := Except.ok.inj (hagain.symm.trans hm)
  exact ⟨rfl, fun _ _ _ => rfl⟩

end Values

section Samples

def eventSchema : Json := .obj [("type", .str "object"),
  ("properties", .obj [("start", .obj [("type", .str "string"), ("format", .str "date-time"),
      ("maxLength", .int 40)]),
    ("title", .obj [("type", .str "string"), ("maxLength", .int 80)])]),
  ("required", .arr [.str "start"]), ("additionalProperties", .bool false)]

def eventDescriptor : ToolDescriptor where
  toolId := "calendar.create_event"
  skillId := "skill.calendar"
  contractVersion := 1
  purpose := "Create an event."
  inputSchema := eventSchema
  observationSchema := .obj [("type", .str "object"), ("properties", .obj []),
    ("required", .arr []), ("additionalProperties", .bool false)]
  effect := .localWrite
  approvalRule := .always
  approvalConditions := []
  sensitivity := .privateData
  persistence := .standard
  idempotency := .required
  effectCardinality := .single
  transferableObservationFields := []
  runtimeDependencies := []
  timeoutSeconds := 30
  maxResultItems := 1
  maxObservationChars := 1000
  legacyIntents := []
  interactive := true
  toolId_valid := isToolId_createEvent
  skillId_valid := isSkillId_calendar
  contractVersion_valid := firstVersion_valid

theorem validateArguments_again_event :
    @ToolDescriptor.validateArguments asciiText plainDates eventDescriptor
      (.obj [("start", .str "2024-12-31T09:36:07Z")]) =
        .ok [("start", .str "2024-12-31T09:36:07Z")] :=
  (@validateArguments_again asciiText plainDates (fun _ => rfl) (fun _ _ => rfl) eventDescriptor
    (.obj [("start", .str " 2024-12-31T09:36:07+00:00")])
    [("start", .str "2024-12-31T09:36:07Z")] (by decide +kernel)).1

end Samples

end HardyAI.Skills
