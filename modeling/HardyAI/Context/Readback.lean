import HardyAI.Context.Serialization
import HardyAI.Skills.CanonicalForm

/-! What is read of a dictionary that was written: each part of a state as it was. -/

open Foundation Foundation.Json HardyAI.Tasks HardyAI.Skills

namespace HardyAI.Context

section Dictionaries

variable {fields d ps : Fields} {k : Str}

theorem lookup_at (h : (fields.map Prod.fst).Nodup) (i : Nat) {v : Json}
    (hi : fields[i]? = some (k, v)) : lookup fields k = some v :=
  lookup_of_mem h (List.mem_of_getElem? hi)

theorem putField_eq_setField (d : Fields) (p : Str × Json) : putField d p = setField d p.1 p.2 := rfl

theorem lookup_putField (d : Fields) (p : Str × Json) (k : Str) :
    lookup (putField d p) k = if k = p.1 then some p.2 else lookup d k := by
  rw [putField_eq_setField]
  by_cases hk : k = p.1
  · rw [if_pos hk, hk, lookup_setField]
  · rw [if_neg hk, lookup_setField_of_ne hk]

/-- The last of the pairs that are put into a dictionary under a key is found there. -/
theorem lookup_foldl_putField (h : (ps.map Prod.fst).Nodup) (d : Fields) (k : Str) :
    lookup (ps.foldl putField d) k = (lookup ps k).or (lookup d k) := by
  induction ps generalizing d with
  | nil => rfl
  | cons p ps ih =>
    rw [List.map_cons, List.nodup_cons] at h
    rw [List.foldl_cons, ih h.2, lookup_putField]
    by_cases hk : k = p.1
    · have hrest : lookup ps k = none := lookup_eq_none.2 (hk ▸ h.1)
      rw [hrest, if_pos hk]
      simp [lookup, hk]
    · rw [if_neg hk]
      have hrest : lookup (p :: ps) k = lookup ps k := by simp [lookup, Ne.symm hk]
      rw [hrest]

theorem nodup_putField (h : (d.map Prod.fst).Nodup) (p : Str × Json) :
    ((putField d p).map Prod.fst).Nodup := nodup_setField h p.1 p.2

theorem keys_present (fields : List (Str × Option Json)) :
    ((present fields).map Prod.fst).Sublist (fields.map Prod.fst) := by
  induction fields with
  | nil => exact List.Sublist.slnil
  | cons p fields ih =>
    obtain ⟨k, v⟩ := p
    cases v with
    | none => exact ih.cons k
    | some v => exact ih.cons_cons k

/-- A key that is present has the value that it was given. -/
theorem lookup_present {fields : List (Str × Option Json)} (h : (fields.map Prod.fst).Nodup)
    (i : Nat) {v : Option Json} (hi : fields[i]? = some (k, v)) : lookup (present fields) k = v := by
  induction fields generalizing i with
  | nil => cases hi
  | cons p fields ih =>
    obtain ⟨l, w⟩ := p
    rw [List.map_cons, List.nodup_cons] at h
    cases i with
    | zero =>
      obtain ⟨rfl, rfl⟩ := Prod.mk.inj (Option.some.inj hi)
      cases w with
      | none => exact lookup_eq_none.2 fun hk => h.1 ((keys_present fields).subset hk)
      | some w => simp [present, lookup]
    | succ i =>
      rw [List.getElem?_cons_succ] at hi
      have hmem : (k, v).1 ∈ fields.map Prod.fst := List.mem_map_of_mem (List.mem_of_getElem? hi)
      have hne : l ≠ k := fun heq => h.1 (heq ▸ hmem)
      have hrest := ih h.2 i hi
      cases w with
      | none => exact hrest
      | some w => simpa [present, lookup, hne] using hrest

end Dictionaries

section Texts

variable {raw : Option Json} {s : Str}

/-- Some text without blanks at its ends. -/
def Trimmed (s : Str) : Prop := s ≠ [] ∧ strip s = s

theorem asOptionalStr_trimmed (h : Trimmed s) : asOptionalStr (some (.str s)) = some s := by
  rw [asOptionalStr, h.2, if_neg h.1]

theorem trimmed_asOptionalStr : ∀ x ∈ asOptionalStr raw, Trimmed x := by
  intro x hx
  unfold asOptionalStr at hx
  split at hx
  · next s =>
    split at hx
    · cases hx
    · next hne =>
      obtain rfl := Option.some.inj hx
      exact ⟨hne, strip_strip s⟩
  · cases hx

theorem asOptionalStr_orNull {s : Option Str} (h : ∀ x ∈ s, Trimmed x) :
    asOptionalStr (some (orNull s)) = s := by
  cases s with
  | none => rfl
  | some x => exact asOptionalStr_trimmed (h x rfl)

theorem trimmed_parseStrList : ∀ x ∈ parseStrList raw, Trimmed x := by
  intro x hx
  unfold parseStrList at hx
  split at hx
  · obtain ⟨y, -, hy⟩ := List.mem_filterMap.1 hx
    exact trimmed_asOptionalStr x hy
  · cases hx

theorem parseStrList_strItems {xs : List Str} (h : ∀ x ∈ xs, Trimmed x) :
    parseStrList (some (strItems xs)) = xs := by
  have hsome : ∀ x ∈ xs, asOptionalStr (some (.str x)) = some x := fun x hx =>
    asOptionalStr_trimmed (h x hx)
  show (xs.map Json.str).filterMap (fun x => asOptionalStr (some x)) = xs
  rw [List.filterMap_map]
  exact (List.filterMap_congr hsome).trans List.filterMap_some

theorem asNonEmptyStr_trimmed (h : Trimmed s) (default : Str) :
    asNonEmptyStr (some (.str s)) default = s := by
  rw [asNonEmptyStr, asOptionalStr_trimmed h, Option.getD_some]

theorem asNonEmptyStr_again {default : Str} (h : default = [] ∨ Trimmed default) :
    asNonEmptyStr (some (.str (asNonEmptyStr raw default))) default = asNonEmptyStr raw default := by
  cases hraw : asOptionalStr raw with
  | none =>
    rw [asNonEmptyStr, asNonEmptyStr, hraw, Option.getD_none]
    rcases h with rfl | h
    · rfl
    · rw [asOptionalStr_trimmed h, Option.getD_some]
  | some s =>
    have hs : asNonEmptyStr raw default = s := by rw [asNonEmptyStr, hraw, Option.getD_some]
    rw [hs, asNonEmptyStr_trimmed (trimmed_asOptionalStr s hraw)]

theorem parseDictList_arr (fs : List Fields) : parseDictList (some (.arr (fs.map .obj))) = fs := by
  show (fs.map Json.obj).filterMap asObject = fs
  rw [List.filterMap_map]
  exact List.filterMap_some

end Texts

section Parts

/-- The keys that a context is read from and never written to. -/
def legacyKeys : List Str :=
  ["pending_clarification", "last_list_name", "last_switch_name", "last_calendar_person",
    "main_sticky_followup_turns_remaining", "main_sticky_followup_reason", "channel_session"]

theorem storedKeys : ((default : RecentTurn).toDict.map Prod.fst).Nodup ∧
    ((default : PendingInteraction).toDict.map Prod.fst).Nodup ∧
    ((default : TrackedEntity).toDict.map Prod.fst).Nodup ∧
    ((default : EntityRegistry).toDict.map Prod.fst).Nodup ∧
    ((default : SessionSummary).toDict.map Prod.fst).Nodup ∧
    ((default : SessionContextState).toDict.map Prod.fst ++ legacyKeys).Nodup ∧
    ((legacyPairs default none none none).map Prod.fst).Nodup ∧
    ∀ k ∈ (default : SessionContextState).toDict.map Prod.fst,
      k ∈ (legacyPairs default none none none).map Prod.fst →
        k = text "main_agent_token_session" := by
  decide +kernel

/-- The keys of the legacy names, and what they name. -/
def legacyNames : List (Str × Str × Str) :=
  [("last_list_name", "lists", "list"), ("last_switch_name", "home", "switch"),
    ("last_calendar_person", "calendar", "person")]

/-- The texts that the code itself puts into a context. -/
theorem storedWords : Trimmed (text "jarvis") ∧ Trimmed (text "clarification") ∧
    Trimmed (text "pending") ∧ Trimmed (text "missing_field") ∧
    ∀ p ∈ legacyNames, Trimmed p.2.1 ∧ Trimmed p.2.2 := by
  unfold Trimmed
  decide +kernel

theorem RecentTurn.keys_nodup (t : RecentTurn) : (t.toDict.map Prod.fst).Nodup := storedKeys.1

theorem PendingInteraction.keys_nodup (p : PendingInteraction) : (p.toDict.map Prod.fst).Nodup :=
  storedKeys.2.1

theorem TrackedEntity.keys_nodup (e : TrackedEntity) : (e.toDict.map Prod.fst).Nodup :=
  storedKeys.2.2.1

theorem EntityRegistry.keys_nodup (r : EntityRegistry) : (r.toDict.map Prod.fst).Nodup :=
  storedKeys.2.2.2.1

theorem SessionSummary.keys_nodup (s : SessionSummary) : (s.toDict.map Prod.fst).Nodup :=
  storedKeys.2.2.2.2.1

theorem SessionContextState.keys_nodup (s : SessionContextState) :
    (s.toDict.map Prod.fst).Nodup := (List.nodup_append.1 storedKeys.2.2.2.2.2.1).1

theorem SessionContextState.lookup_legacy (s : SessionContextState) {k : Str} (h : k ∈ legacyKeys) :
    lookup s.toDict k = none :=
  lookup_eq_none.2 fun hk => (List.nodup_append.1 storedKeys.2.2.2.2.2.1).2.2 k hk k h rfl

theorem parseRecentTurn_again (raw : Fields) :
    parseRecentTurn (parseRecentTurn raw).toDict = parseRecentTurn raw := by
  have h := (parseRecentTurn raw).keys_nodup
  rw [parseRecentTurn, lookup_at h 0 rfl, lookup_at h 1 rfl, lookup_at h 2 rfl, lookup_at h 3 rfl,
    lookup_at h 4 rfl, lookup_at h 5 rfl, lookup_at h 6 rfl, lookup_at h 7 rfl]
  simp only [parseRecentTurn, asOptionalStr_orNull trimmed_asOptionalStr,
    asNonEmptyStr_again (.inl rfl)]
  rfl

/-- What an interaction is read back as. -/
theorem parsePendingInteraction_toDict (p : PendingInteraction) :
    parsePendingInteraction (some (.obj p.toDict)) = some
      { kind := asNonEmptyStr (some (.str p.kind)) "clarification"
        intent := asOptionalStr (some (orNull p.intent))
        skillId := asOptionalStr (some (orNull p.skillId))
        status := asNonEmptyStr (some (.str p.status)) "pending"
        question := asOptionalStr (some (orNull p.question))
        expectedFields := parseStrList (some (strItems p.expectedFields))
        candidateEntities := parseDictList (some (.arr (p.candidateEntities.map .obj)))
        proposedAction := p.proposedAction
        createdAt := asOptionalStr (some (orNull p.createdAt))
        expiresAt := asOptionalStr (some (orNull p.expiresAt))
        originTurnId := asOptionalStr (some (orNull p.originTurnId))
        metadata := p.metadata } := by
  have h := p.keys_nodup
  rw [parsePendingInteraction, lookup_at h 0 rfl, lookup_at h 1 rfl, lookup_at h 2 rfl,
    lookup_at h 3 rfl, lookup_at h 4 rfl, lookup_at h 5 rfl, lookup_at h 6 rfl, lookup_at h 7 rfl,
    lookup_at h 8 rfl, lookup_at h 9 rfl, lookup_at h 10 rfl, lookup_at h 11 rfl]
  rfl

theorem parsePendingInteraction_again {raw : Option Json} :
    ∀ p ∈ parsePendingInteraction raw, parsePendingInteraction (some (.obj p.toDict)) = some p := by
  intro p hp
  unfold parsePendingInteraction at hp
  split at hp
  · obtain rfl := Option.some.inj hp
    rw [parsePendingInteraction_toDict]
    simp only [asOptionalStr_orNull trimmed_asOptionalStr, parseDictList_arr,
      parseStrList_strItems trimmed_parseStrList, asNonEmptyStr_again (.inr storedWords.2.1),
      asNonEmptyStr_again (.inr storedWords.2.2.1)]
  · cases hp

variable [PythonText]

theorem wholeItems_toJson (ns : List Whole) : wholeItems (ns.map Whole.toJson) = .ok ns := by
  induction ns with
  | nil => rfl
  | cons n ns ih => cases n <;> simp only [List.map_cons, Whole.toJson, wholeItems, ih, Except.map]

theorem parseSessionSummary_toDict (s : SessionSummary) :
    parseSessionSummary (some (.obj s.toDict)) = .ok
      { summaryText := asNonEmptyStr (some (.str s.summaryText)) []
        activeGoals := parseStrList (some (strItems s.activeGoals))
        resolvedDecisions := parseStrList (some (strItems s.resolvedDecisions))
        openThreads := parseStrList (some (strItems s.openThreads))
        importantEntities := parseStrList (some (strItems s.importantEntities))
        lastUpdatedAt := asOptionalStr (some (orNull s.lastUpdatedAt))
        sourceTurnRange := s.sourceTurnRange } := by
  have h := s.keys_nodup
  rw [parseSessionSummary, lookup_at h 0 rfl, lookup_at h 1 rfl, lookup_at h 2 rfl,
    lookup_at h 3 rfl, lookup_at h 4 rfl, lookup_at h 5 rfl, lookup_at h 6 rfl, turnRange,
    wholeItems_toJson]
  rfl

theorem parseSessionSummary_again {raw : Option Json} {s : SessionSummary}
    (h : parseSessionSummary raw = .ok s) : parseSessionSummary (some (.obj s.toDict)) = .ok s := by
  rw [parseSessionSummary_toDict]
  unfold parseSessionSummary at h
  split at h
  · obtain ⟨range, -, h⟩ := bind_eq_ok.1 h
    obtain rfl := Except.ok.inj h
    simp only [asOptionalStr_orNull trimmed_asOptionalStr,
      parseStrList_strItems trimmed_parseStrList, asNonEmptyStr_again (.inl rfl)]
  · obtain rfl := Except.ok.inj h
    rfl

end Parts

section Registry

/-- Different aliases, each of which stands for some name. -/
structure SettledAliases (d : Fields) : Prop where
  distinct : (d.map Prod.fst).Nodup
  named : ∀ p ∈ d, Trimmed p.1 ∧ ∃ v, p.2 = .str v ∧ Trimmed v

theorem SettledAliases.put {d : Fields} (h : SettledAliases d) (p : Str × Json) :
    SettledAliases (putAlias d p) := by
  unfold putAlias
  split
  · next k v hk hv =>
    refine ⟨nodup_putField h.distinct _, fun q hq => ?_⟩
    rcases mem_setField hq with hq | rfl
    · exact h.named q hq
    · exact ⟨trimmed_asOptionalStr k hk, v, rfl, trimmed_asOptionalStr v hv⟩
  · exact h

theorem settledAliases_foldl {d : Fields} (h : SettledAliases d) (ps : Fields) :
    SettledAliases (ps.foldl putAlias d) := by
  induction ps generalizing d with
  | nil => exact h
  | cons p ps ih => exact ih (h.put p)

theorem SettledAliases.foldl_self {d : Fields} (h : SettledAliases d) :
    d.foldl putAlias [] = d := by
  have hput : ∀ (ps : Fields), (∀ p ∈ ps, Trimmed p.1 ∧ ∃ v, p.2 = .str v ∧ Trimmed v) →
      ∀ front, ps.foldl putAlias front = ps.foldl putField front := by
    intro ps
    induction ps with
    | nil => exact fun _ _ => rfl
    | cons p ps ih =>
      intro hps front
      obtain ⟨k, x⟩ := p
      obtain ⟨hk, v, rfl, hv⟩ := hps _ List.mem_cons_self
      rw [List.foldl_cons, List.foldl_cons, putAlias, asOptionalStr_trimmed hk,
        asOptionalStr_trimmed hv]
      exact ih (fun q hq => hps q (List.mem_cons_of_mem _ hq)) _
  rw [hput d h.named, foldl_putField (by simpa using h.distinct), List.nil_append]

theorem read_of_mapM {β γ : Type} {f : β → Except PyError γ} {xs : List β} {ys : List γ}
    (h : xs.mapM f = .ok ys) : ∀ y ∈ ys, ∃ x ∈ xs, f x = .ok y := by
  induction xs generalizing ys with
  | nil =>
    obtain rfl := Except.ok.inj h
    exact fun _ hy => absurd hy List.not_mem_nil
  | cons x xs ih =>
    rw [List.mapM_cons] at h
    obtain ⟨z, hz, h⟩ := bind_eq_ok.1 h
    obtain ⟨zs, hzs, h⟩ := bind_eq_ok.1 h
    obtain rfl := Except.ok.inj h
    intro y hy
    rcases List.mem_cons.1 hy with rfl | hy
    · exact ⟨x, List.mem_cons_self, hz⟩
    · obtain ⟨w, hw, hread⟩ := ih hzs y hy
      exact ⟨w, List.mem_cons_of_mem x hw, hread⟩

variable [PythonFloat]

/-- What an entity is read back as. -/
theorem parseTrackedEntity_toDict (e : TrackedEntity) :
    parseTrackedEntity e.toDict = .ok
      { domain := asNonEmptyStr (some (.str e.domain)) []
        entityType := asNonEmptyStr (some (.str e.entityType)) []
        entityId := asOptionalStr (some (orNull e.entityId))
        displayName := asNonEmptyStr (some (.str e.displayName)) []
        aliases := parseStrList (some (strItems e.aliases))
        salience := e.salience
        lastConfirmedAt := asOptionalStr (some (orNull e.lastConfirmedAt))
        resolutionHints := e.resolutionHints } := by
  have h := e.keys_nodup
  rw [parseTrackedEntity, lookup_at h 0 rfl, lookup_at h 1 rfl, lookup_at h 2 rfl,
    lookup_at h 3 rfl, lookup_at h 4 rfl, lookup_at h 5 rfl, lookup_at h 6 rfl, lookup_at h 7 rfl]
  rfl

theorem parseTrackedEntity_again {raw : Fields} {e : TrackedEntity}
    (h : parseTrackedEntity raw = .ok e) : parseTrackedEntity e.toDict = .ok e := by
  rw [parseTrackedEntity_toDict]
  obtain ⟨salience, -, h⟩ := bind_eq_ok.1 h
  obtain rfl := Except.ok.inj h
  simp only [asOptionalStr_orNull trimmed_asOptionalStr,
    parseStrList_strItems trimmed_parseStrList, asNonEmptyStr_again (.inl rfl)]

/-- A registry is read back as it is, where each of its entities is. -/
theorem parseEntityRegistry_toDict {r : EntityRegistry}
    (hentities : ∀ e ∈ r.entities, parseTrackedEntity e.toDict = .ok e)
    (haliases : SettledAliases r.aliasMap) :
    parseEntityRegistry (some (.obj r.toDict)) = .ok r := by
  have h := r.keys_nodup
  have hdicts : parseDictList (some (.arr (r.entities.map fun e => .obj e.toDict))) =
      r.entities.map TrackedEntity.toDict := by
    rw [← parseDictList_arr (r.entities.map TrackedEntity.toDict), List.map_map]
    rfl
  rw [parseEntityRegistry, lookup_at h 0 rfl, lookup_at h 1 rfl, hdicts,
    mapM_map_eq_ok hentities]
  exact congrArg (fun m => Except.ok (EntityRegistry.mk r.entities m)) haliases.foldl_self

theorem parseEntityRegistry_spec {raw : Option Json} {r : EntityRegistry}
    (h : parseEntityRegistry raw = .ok r) :
    (∀ e ∈ r.entities, parseTrackedEntity e.toDict = .ok e) ∧ SettledAliases r.aliasMap := by
  have hempty : SettledAliases [] := ⟨List.nodup_nil, fun _ hp => absurd hp List.not_mem_nil⟩
  unfold parseEntityRegistry at h
  split at h
  · obtain ⟨es, hes, h⟩ := bind_eq_ok.1 h
    obtain rfl := Except.ok.inj h
    refine ⟨fun e he => ?_, settledAliases_foldl hempty _⟩
    obtain ⟨raw, -, hraw⟩ := read_of_mapM hes e he
    exact parseTrackedEntity_again hraw
  · obtain rfl := Except.ok.inj h
    exact ⟨fun _ he => absurd he List.not_mem_nil, hempty⟩

end Registry

end HardyAI.Context
