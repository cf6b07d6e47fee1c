import HardyAI.Context.Readback
import HardyAI.Foundation.Blanks

/-! A stored context is read, written and read again. -/

open Foundation Foundation.Json HardyAI.Tasks HardyAI.Skills

namespace HardyAI.Context

section Readable

variable [PythonText]

theorem pyInt_float (bits : BitVec 64) :
    (∃ n, pyInt (.float bits) = .ok n) ↔ finite bits = true := by
  rw [pyInt]
  by_cases hfinite : finite bits = true
  · rw [if_pos hfinite]
    exact iff_of_true ⟨_, rfl⟩ hfinite
  · rw [if_neg hfinite]
    refine iff_of_false ?_ hfinite
    rintro ⟨n, hn⟩
    split at hn <;> cases hn

theorem asInt_isOk {raw : Option Json} {default : Int} :
    (∃ n, asInt raw default = .ok n) ↔ ∀ bits, raw = some (.float bits) → finite bits = true := by
  constructor
  · rintro ⟨n, hn⟩ bits rfl
    obtain ⟨m, hm, -⟩ := map_eq_ok.1 hn
    exact (pyInt_float bits).1 ⟨m, hm⟩
  · intro h
    unfold asInt
    split
    · exact ⟨_, rfl⟩
    · exact ⟨_, rfl⟩
    · next bits =>
      obtain ⟨n, hn⟩ := (pyInt_float bits).2 (h bits rfl)
      exact ⟨.int n, map_eq_ok.2 ⟨n, hn, rfl⟩⟩
    · split <;> exact ⟨_, rfl⟩
    · exact ⟨_, rfl⟩

omit [PythonText] in
theorem floatFrom_isOk (n : Int) :
    (∃ bits, floatFrom n = .ok bits) ↔ n.natAbs < 2 ^ 1024 - 2 ^ 970 := by
  rw [← floatOfInt_isSome, floatFrom]
  cases floatOfInt n with
  | none => simp
  | some bits => simp

omit [PythonText] in
theorem asFloat_isOk [PythonFloat] {raw : Option Json} {default : BitVec 64} :
    (∃ bits, asFloat raw default = .ok bits) ↔
      ∀ n, raw = some (.int n) → n.natAbs < 2 ^ 1024 - 2 ^ 970 := by
  constructor
  · rintro ⟨bits, hbits⟩ n rfl
    exact (floatFrom_isOk n).1 ⟨bits, hbits⟩
  · intro h
    unfold asFloat
    split
    · next b => cases b <;> exact ⟨_, rfl⟩
    · next n => exact (floatFrom_isOk n).2 (h n rfl)
    · exact ⟨_, rfl⟩
    · split <;> exact ⟨_, rfl⟩
    · exact ⟨_, rfl⟩

theorem wholeItems_isOk {items : List Json} :
    (∃ ns, wholeItems items = .ok ns) ↔ ∀ bits, .float bits ∈ items → finite bits = true := by
  induction items with
  | nil => simp [wholeItems]
  | cons x items ih =>
    have hkeep (f : List Whole → List Whole) :
        (∃ ns, (wholeItems items).map f = .ok ns) ↔ ∃ ns, wholeItems items = .ok ns := by
      constructor
      · rintro ⟨ns, hns⟩
        obtain ⟨ms, hms, -⟩ := map_eq_ok.1 hns
        exact ⟨ms, hms⟩
      · rintro ⟨ns, hns⟩
        exact ⟨f ns, map_eq_ok.2 ⟨ns, hns, rfl⟩⟩
    cases x with
    | bool b => simp [wholeItems, hkeep, ih]
    | int n => simp [wholeItems, hkeep, ih]
    | float bits =>
      constructor
      · rintro ⟨ns, hns⟩
        obtain ⟨n, hn, hns⟩ := bind_eq_ok.1 hns
        obtain ⟨ms, hms, -⟩ := bind_eq_ok.1 hns
        intro other hmem
        rcases List.mem_cons.1 hmem with hsame | hmem
        · obtain rfl := Json.float.inj hsame
          exact (pyInt_float other).1 ⟨n, hn⟩
        · exact ih.1 ⟨ms, hms⟩ other hmem
      · intro h
        obtain ⟨n, hn⟩ := (pyInt_float bits).2 (h bits List.mem_cons_self)
        obtain ⟨ns, hns⟩ := ih.2 fun other hmem => h other (List.mem_cons_of_mem _ hmem)
        exact ⟨.int n :: ns, bind_eq_ok.2 ⟨n, hn, bind_eq_ok.2 ⟨ns, hns, rfl⟩⟩⟩
    | null => simp [wholeItems, ih]
    | str s => simp [wholeItems, ih]
    | arr xs => simp [wholeItems, ih]
    | obj fields => simp [wholeItems, ih]

omit [PythonText] in
/-- What a loop can run through without an error in the numbers that it meets. -/
def Countable : Json → Prop
  | .arr items => ∀ bits, .float bits ∈ items → finite bits = true
  | .str _ | .obj _ => True
  | .null | .bool _ | .int _ | .float _ => False

theorem turnRange_isOk {raw : Option Json} :
    (∃ ns, turnRange raw = .ok ns) ↔ ∀ v, raw = some v → Countable v := by
  cases raw with
  | none => simp [turnRange]
  | some v => cases v <;> simp [turnRange, Countable, wholeItems_isOk]

theorem parseSessionSummary_isOk {raw : Option Json} :
    (∃ s, parseSessionSummary raw = .ok s) ↔ ∀ summary value, raw = some (.obj summary) →
      lookup summary "source_turn_range" = some value → Countable value := by
  constructor
  · rintro ⟨s, hs⟩ summary value rfl hvalue
    obtain ⟨ns, hns, -⟩ := bind_eq_ok.1 hs
    exact turnRange_isOk.1 ⟨ns, hns⟩ value hvalue
  · intro h
    unfold parseSessionSummary
    split
    · next summary =>
      obtain ⟨ns, hns⟩ := turnRange_isOk.2 fun value hvalue => h summary value rfl hvalue
      exact ⟨_, bind_eq_ok.2 ⟨ns, hns, rfl⟩⟩
    · exact ⟨_, rfl⟩

omit [PythonText] in
theorem mapM_isOk {β γ : Type} {f : β → Except PyError γ} {xs : List β} :
    (∃ ys, xs.mapM f = .ok ys) ↔ ∀ x ∈ xs, ∃ y, f x = .ok y := by
  induction xs with
  | nil => exact ⟨fun _ _ hx => absurd hx List.not_mem_nil, fun _ => ⟨[], rfl⟩⟩
  | cons x xs ih =>
    rw [List.forall_mem_cons, ← ih]
    constructor
    · rintro ⟨ys, hys⟩
      rw [List.mapM_cons] at hys
      obtain ⟨y, hy, hys⟩ := bind_eq_ok.1 hys
      obtain ⟨zs, hzs, -⟩ := bind_eq_ok.1 hys
      exact ⟨⟨y, hy⟩, zs, hzs⟩
    · rintro ⟨⟨y, hy⟩, zs, hzs⟩
      refine ⟨y :: zs, ?_⟩
      rw [List.mapM_cons]
      exact bind_eq_ok.2 ⟨y, hy, bind_eq_ok.2 ⟨zs, hzs, rfl⟩⟩

omit [PythonText] in
/-- The entities of a stored context as they are stored. -/
def storedEntities (raw : Fields) : List Fields :=
  parseDictList (lookup (parseDict (lookup raw "entity_registry")) "entities")

variable [PythonFloat]

omit [PythonText] in
theorem parseEntityRegistry_isOk {raw : Fields} :
    (∃ r, parseEntityRegistry (lookup raw "entity_registry") = .ok r) ↔
      ∀ e ∈ storedEntities raw, ∀ n, lookup e "salience" = some (.int n) →
        n.natAbs < 2 ^ 1024 - 2 ^ 970 := by
  have hentity (e : Fields) : (∃ t, parseTrackedEntity e = .ok t) ↔
      ∀ n, lookup e "salience" = some (.int n) → n.natAbs < 2 ^ 1024 - 2 ^ 970 := by
    rw [← asFloat_isOk]
    constructor
    · rintro ⟨t, ht⟩
      obtain ⟨bits, hbits, -⟩ := bind_eq_ok.1 ht
      exact ⟨bits, hbits⟩
    · rintro ⟨bits, hbits⟩
      exact ⟨_, bind_eq_ok.2 ⟨bits, hbits, rfl⟩⟩
  simp only [← hentity]
  rw [← mapM_isOk, storedEntities]
  unfold parseEntityRegistry parseDict
  split
  · constructor
    · rintro ⟨r, hr⟩
      obtain ⟨es, hes, -⟩ := bind_eq_ok.1 hr
      exact ⟨es, hes⟩
    · rintro ⟨es, hes⟩
      exact ⟨_, bind_eq_ok.2 ⟨es, hes, rfl⟩⟩
  · exact ⟨fun _ => ⟨[], rfl⟩, fun _ => ⟨_, rfl⟩⟩

/-- A context that is read without an error: its versions and turns are finite, its turns are in
something that can be looped through, and the saliences of its entities are no integers beyond the
floats. -/
structure Readable (raw : Fields) : Prop where
  version : ∀ bits, lookup raw "context_version" = some (.float bits) → finite bits = true
  range : ∀ summary value, lookup raw "session_summary" = some (.obj summary) →
    lookup summary "source_turn_range" = some value → Countable value
  salience : ∀ e ∈ storedEntities raw, ∀ n, lookup e "salience" = some (.int n) →
    n.natAbs < 2 ^ 1024 - 2 ^ 970
  turns : ∀ bits, lookup raw "main_sticky_followup_turns_remaining" = some (.float bits) →
    finite bits = true

/-- What a context is read as before the legacy keys are looked at. -/
def ownState (raw : Fields) (version : Whole) (summary : SessionSummary) (registry : EntityRegistry) :
    SessionContextState where
  version := version.value
  activeAgentId := asNonEmptyStr (lookup raw "active_agent_id") "jarvis"
  activeSkillId := asOptionalStr (lookup raw "active_skill_id")
  recentTurns := parseRecentTurns (lookup raw "recent_turns")
  pendingInteraction := parsePendingInteraction (lookup raw "pending_interaction")
  sessionSummary := summary
  entityRegistry := registry
  focusStack := parseStrList (lookup raw "focus_stack")
  contextAnnotations := parseDict (lookup raw "context_annotations")
  channelRuntime := parseDict (lookup raw "channel_runtime")
  mainAgentTokenSession := parseDict (lookup raw "main_agent_token_session")

/-- A state of a positive version. -/
def currentVersion (s : SessionContextState) : SessionContextState :=
  if s.version ≤ 0 then { s with version := 1 } else s

/-- What the legacy keys make of a state. -/
def adapted (raw : Fields) (turns : Whole) (s : SessionContextState) : SessionContextState :=
  adaptChannelRuntime raw (adaptTokenSession raw (adaptSticky raw turns
    (adaptEntities raw (adaptPending raw s))))

theorem deserialize_eq_ok {payload : Json} {s : SessionContextState} :
    deserializeSessionContext payload = .ok s ↔ ∃ version summary registry turns,
      asInt (lookup ((asObject payload).getD []) "context_version") 1 = .ok version ∧
      parseSessionSummary (lookup ((asObject payload).getD []) "session_summary") = .ok summary ∧
      parseEntityRegistry (lookup ((asObject payload).getD []) "entity_registry") = .ok registry ∧
      asInt (lookup ((asObject payload).getD []) "main_sticky_followup_turns_remaining") 0 =
        .ok turns ∧
      s = currentVersion (adapted ((asObject payload).getD []) turns
        (ownState ((asObject payload).getD []) version summary registry)) := by
  constructor
  · intro h
    obtain ⟨version, hversion, h⟩ := bind_eq_ok.1 h
    obtain ⟨summary, hsummary, h⟩ := bind_eq_ok.1 h
    obtain ⟨registry, hregistry, h⟩ := bind_eq_ok.1 h
    obtain ⟨state, hstate, h⟩ := bind_eq_ok.1 h
    obtain ⟨turns, hturns, hstate⟩ := bind_eq_ok.1 hstate
    obtain rfl := Except.ok.inj hstate
    exact ⟨version, summary, registry, turns, hversion, hsummary, hregistry, hturns,
      (Except.ok.inj h).symm⟩
  · rintro ⟨version, summary, registry, turns, hversion, hsummary, hregistry, hturns, rfl⟩
    exact bind_eq_ok.2 ⟨version, hversion, bind_eq_ok.2 ⟨summary, hsummary,
      bind_eq_ok.2 ⟨registry, hregistry, bind_eq_ok.2 ⟨_, bind_eq_ok.2 ⟨turns, hturns, rfl⟩, rfl⟩⟩⟩⟩

theorem deserialize_isOk {payload : Json} : (∃ s, deserializeSessionContext payload = .ok s) ↔
    Readable ((asObject payload).getD []) := by
  constructor
  · rintro ⟨s, hs⟩
    obtain ⟨version, summary, registry, turns, hversion, hsummary, hregistry, hturns, -⟩ :=
      deserialize_eq_ok.1 hs
    exact ⟨asInt_isOk.1 ⟨version, hversion⟩, parseSessionSummary_isOk.1 ⟨summary, hsummary⟩,
      parseEntityRegistry_isOk.1 ⟨registry, hregistry⟩, asInt_isOk.1 ⟨turns, hturns⟩⟩
  · intro h
    obtain ⟨version, hversion⟩ : ∃ n, asInt (lookup _ "context_version") 1 = .ok n :=
      asInt_isOk.2 h.version
    obtain ⟨summary, hsummary⟩ := parseSessionSummary_isOk.2 h.range
    obtain ⟨registry, hregistry⟩ := parseEntityRegistry_isOk.2 h.salience
    obtain ⟨turns, hturns⟩ : ∃ n, asInt (lookup _ "main_sticky_followup_turns_remaining") 0 =
        .ok n := asInt_isOk.2 h.turns
    exact ⟨_, deserialize_eq_ok.2 ⟨version, summary, registry, turns, hversion, hsummary, hregistry,
      hturns, rfl⟩⟩

end Readable

section Settled

variable [PythonText] [PythonFloat] {raw : Fields} {s : SessionContextState}

/-- A state whose parts other than its turns are read back as they are. -/
structure SessionContextState.SettledApart (s : SessionContextState) : Prop where
  agent : Trimmed s.activeAgentId
  skill : ∀ x ∈ s.activeSkillId, Trimmed x
  pending : ∀ p ∈ s.pendingInteraction, parsePendingInteraction (some (.obj p.toDict)) = some p
  summary : parseSessionSummary (some (.obj s.sessionSummary.toDict)) = .ok s.sessionSummary
  entities : ∀ e ∈ s.entityRegistry.entities, parseTrackedEntity e.toDict = .ok e
  aliases : SettledAliases s.entityRegistry.aliasMap
  focus : ∀ x ∈ s.focusStack, Trimmed x

/-- A state whose parts are read back as they are. -/
structure SessionContextState.Settled (s : SessionContextState) : Prop extends s.SettledApart where
  turns : ∀ t ∈ s.recentTurns, parseRecentTurn t.toDict = t

theorem settled_ownState {version : Whole} {summary : SessionSummary} {registry : EntityRegistry}
    (hsummary : parseSessionSummary (lookup raw "session_summary") = .ok summary)
    (hregistry : parseEntityRegistry (lookup raw "entity_registry") = .ok registry) :
    (ownState raw version summary registry).Settled where
  agent := by
    show Trimmed (asNonEmptyStr (lookup raw "active_agent_id") "jarvis")
    cases hread : asOptionalStr (lookup raw "active_agent_id") with
    | none =>
      rw [asNonEmptyStr, hread, Option.getD_none]
      exact storedWords.1
    | some x =>
      rw [asNonEmptyStr, hread, Option.getD_some]
      exact trimmed_asOptionalStr x hread
  skill := trimmed_asOptionalStr
  turns t ht := by
    obtain ⟨turn, -, rfl⟩ := List.mem_map.1 ht
    exact parseRecentTurn_again turn
  pending := parsePendingInteraction_again
  summary := parseSessionSummary_again hsummary
  entities := (parseEntityRegistry_spec hregistry).1
  aliases := (parseEntityRegistry_spec hregistry).2
  focus := trimmed_parseStrList

omit [PythonText] [PythonFloat] in
theorem legacyInteraction_again (pending : Fields) :
    parsePendingInteraction (some (.obj (legacyInteraction pending).toDict)) =
      some (legacyInteraction pending) := by
  rw [parsePendingInteraction_toDict]
  simp only [legacyInteraction, asOptionalStr_orNull trimmed_asOptionalStr,
    parseStrList_strItems trimmed_parseStrList, asNonEmptyStr_trimmed storedWords.2.2.1,
    asNonEmptyStr_trimmed storedWords.2.2.2.1]
  rfl

theorem settled_adaptPending (h : s.Settled) (raw : Fields) : (adaptPending raw s).Settled := by
  refine { h with pending := fun p hp => ?_ }
  rcases Option.or_eq_some_iff.1 hp with hown | ⟨-, hlegacy⟩
  · exact h.pending p hown
  · obtain ⟨fields, -, rfl⟩ := Option.map_eq_some_iff.1 hlegacy
    exact legacyInteraction_again fields

theorem settled_ensureLegacyEntity (hlower : ∀ x, Trimmed x → Trimmed (PythonText.lower x))
    (h : s.Settled) {domain entityType : Str} (hdomain : Trimmed domain)
    (htype : Trimmed entityType) (rawValue : Option Json) (legacyKey : Str) :
    (ensureLegacyEntity rawValue domain entityType legacyKey s).Settled := by
  unfold ensureLegacyEntity
  split
  · exact h
  · next name hname =>
    have htrimmed : Trimmed name := trimmed_asOptionalStr name hname
    split
    · exact h
    · refine { h with entities := fun e he => ?_ }
      rcases List.mem_append.1 he with he | he
      · exact h.entities e he
      · obtain rfl := List.mem_singleton.1 he
        have haliases : ∀ x ∈ [PythonText.lower name], Trimmed x := by
          intro x hx
          obtain rfl := List.mem_singleton.1 hx
          exact hlower name htrimmed
        rw [parseTrackedEntity_toDict]
        simp only [asNonEmptyStr_trimmed hdomain, asNonEmptyStr_trimmed htype,
          asNonEmptyStr_trimmed htrimmed, parseStrList_strItems haliases]
        rfl

theorem settled_adapted (hlower : ∀ x, Trimmed x → Trimmed (PythonText.lower x)) (h : s.Settled)
    (turns : Whole) (raw : Fields) : (adapted raw turns s).Settled := by
  have hpending := settled_adaptPending h raw
  have hentities : (adaptEntities raw (adaptPending raw s)).Settled := by
    have hwords := storedWords.2.2.2.2
    have hlist := hwords _ (List.mem_cons_self)
    have hswitch := hwords _ (List.mem_cons_of_mem _ List.mem_cons_self)
    have hperson := hwords _
      (List.mem_cons_of_mem _ (List.mem_cons_of_mem _ List.mem_cons_self))
    exact settled_ensureLegacyEntity hlower (settled_ensureLegacyEntity hlower
      (settled_ensureLegacyEntity hlower hpending hlist.1 hlist.2 _ _) hswitch.1 hswitch.2 _ _)
      hperson.1 hperson.2 _ _
  have hsticky : (adaptSticky raw turns (adaptEntities raw (adaptPending raw s))).Settled := by
    unfold adaptSticky
    split
    · exact { hentities with }
    · exact hentities
  have htoken : (adaptTokenSession raw (adaptSticky raw turns
      (adaptEntities raw (adaptPending raw s)))).Settled := by
    unfold adaptTokenSession
    split
    · exact { hsticky with }
    · exact hsticky
  unfold adapted adaptChannelRuntime
  split
  · exact { htoken with }
  · exact htoken

/-- What is read of a context is settled, and of a positive version. -/
theorem deserialize_settled (hlower : ∀ x, Trimmed x → Trimmed (PythonText.lower x))
    {payload : Json} (h : deserializeSessionContext payload = .ok s) :
    s.Settled ∧ 1 ≤ s.version := by
  obtain ⟨version, summary, registry, turns, -, hsummary, hregistry, -, rfl⟩ :=
    deserialize_eq_ok.1 h
  have hown : (ownState ((asObject payload).getD []) version summary registry).Settled :=
    settled_ownState hsummary hregistry
  have hsettled := settled_adapted hlower hown turns ((asObject payload).getD [])
  unfold currentVersion
  split
  · exact ⟨{ hsettled with }, le_rfl⟩
  · next hpositive => exact ⟨hsettled, by omega⟩

end Settled

section Carried

variable [PythonText] [PythonFloat] {raw : Fields} {s : SessionContextState}

/-- Under the legacy keys a dictionary has nothing that a state has not, interactions apart. -/
structure Adopted (raw : Fields) (s : SessionContextState) : Prop where
  names : ∀ key domain entityType, (key, domain, entityType) ∈ legacyNames →
    ∀ name ∈ asOptionalStr (lookup raw key), ∃ e ∈ s.entityRegistry.entities,
      e.domain = domain ∧ e.entityType = entityType ∧
        PythonText.lower e.displayName = PythonText.lower name
  turns : ∃ turns, asInt (lookup raw "main_sticky_followup_turns_remaining") 0 = .ok turns ∧
    (0 < turns.value → (lookup s.contextAnnotations "main_sticky_followup").isSome = true)
  channel : s.channelRuntime = [] → parseDict (lookup raw "channel_session") = []

/-- A dictionary that holds a state under the keys of a context. -/
structure Carries (raw : Fields) (s : SessionContextState) : Prop extends Adopted raw s where
  own : ∀ p ∈ s.toDict, lookup raw p.1 = some p.2

/-- A turn as it is read of a stored context. -/
def storedTurn (t : RecentTurn) : RecentTurn := parseRecentTurn t.toDict

/-- A state with its turns as they are read back. -/
def SessionContextState.reread (s : SessionContextState) : SessionContextState :=
  { s with recentTurns := s.recentTurns.map storedTurn }

theorem reread_turns (h : s.Settled) : s.recentTurns.map storedTurn = s.recentTurns :=
  (List.map_congr_left h.turns).trans (List.map_id _)

theorem reread_of_settled (h : s.Settled) : s.reread = s := by
  rw [SessionContextState.reread, reread_turns h]

theorem ownState_of_carries (hs : s.SettledApart) (h : Carries raw s) :
    ownState raw (.int s.version) s.sessionSummary s.entityRegistry = s.reread := by
  have hat (i : Nat) {k : Str} {v : Json} (hi : s.toDict[i]? = some (k, v)) :
      lookup raw k = some v := h.own _ (List.mem_of_getElem? hi)
  have hagent : asNonEmptyStr (lookup raw "active_agent_id") "jarvis" = s.activeAgentId := by
    rw [hat 1 rfl, asNonEmptyStr_trimmed hs.agent]
  have hskill : asOptionalStr (lookup raw "active_skill_id") = s.activeSkillId := by
    rw [hat 2 rfl, asOptionalStr_orNull hs.skill]
  have hturns : parseRecentTurns (lookup raw "recent_turns") = s.recentTurns.map storedTurn := by
    have hdicts : s.recentTurns.map (fun t => Json.obj t.toDict) =
        (s.recentTurns.map RecentTurn.toDict).map .obj := by
      rw [List.map_map]
      rfl
    rw [hat 3 rfl, parseRecentTurns, hdicts, parseDictList_arr, List.map_map]
    rfl
  have hpending : parsePendingInteraction (lookup raw "pending_interaction") =
      s.pendingInteraction := by
    rw [hat 4 rfl]
    cases hp : s.pendingInteraction with
    | none => rfl
    | some p => exact hs.pending p hp
  have hfocus : parseStrList (lookup raw "focus_stack") = s.focusStack := by
    rw [hat 7 rfl, parseStrList_strItems hs.focus]
  have hannotations : parseDict (lookup raw "context_annotations") = s.contextAnnotations := by
    rw [hat 8 rfl]
    rfl
  have hchannel : parseDict (lookup raw "channel_runtime") = s.channelRuntime := by
    rw [hat 9 rfl]
    rfl
  have htoken : parseDict (lookup raw "main_agent_token_session") = s.mainAgentTokenSession := by
    rw [hat 10 rfl]
    rfl
  rw [ownState, hagent, hskill, hturns, hpending, hfocus, hannotations, hchannel, htoken]
  rfl

omit [PythonFloat] in
theorem ensureLegacyEntity_of_adopted (h : Adopted raw s) {key domain entityType : Str}
    (hkey : (key, domain, entityType) ∈ legacyNames) :
    ensureLegacyEntity (lookup raw key) domain entityType key s = s := by
  unfold ensureLegacyEntity
  split
  · rfl
  · next name hname =>
    obtain ⟨e, he, hdomain, htype, hlower⟩ := h.names key domain entityType hkey name hname
    refine if_pos (List.any_eq_true.2 ⟨e, he, ?_⟩)
    simp [hdomain, htype, hlower]

omit [PythonText] [PythonFloat] in
theorem adaptTokenSession_of_own
    (hown : lookup raw "main_agent_token_session" = some (.obj s.mainAgentTokenSession)) :
    adaptTokenSession raw s = s := by
  unfold adaptTokenSession
  split
  · next hnil =>
    have hempty : s.mainAgentTokenSession = [] := hnil
    rw [hown, hempty]
    cases s
    exact congrArg _ hempty.symm
  · rfl

omit [PythonFloat] in
theorem adaptChannelRuntime_of_adopted (h : Adopted raw s) : adaptChannelRuntime raw s = s := by
  unfold adaptChannelRuntime
  split
  · next hnil =>
    have hempty : s.channelRuntime = [] := hnil
    rw [h.channel hempty]
    cases s
    cases hempty
    rfl
  · rfl

omit [PythonFloat] in
/-- Of the legacy keys only the interaction is adopted once more. -/
theorem adapted_of_adopted (h : Adopted raw s) {turns : Whole}
    (hown : lookup raw "main_agent_token_session" = some (.obj s.mainAgentTokenSession))
    (hturns : 0 < turns.value →
      (lookup s.contextAnnotations "main_sticky_followup").isSome = true) :
    adapted raw turns s = adaptPending raw s := by
  have hadopted : Adopted raw (adaptPending raw s) := { h with }
  have hentities : adaptEntities raw (adaptPending raw s) = adaptPending raw s := by
    rw [adaptEntities, ensureLegacyEntity_of_adopted hadopted List.mem_cons_self,
      ensureLegacyEntity_of_adopted hadopted (List.mem_cons_of_mem _ List.mem_cons_self),
      ensureLegacyEntity_of_adopted hadopted
        (List.mem_cons_of_mem _ (List.mem_cons_of_mem _ List.mem_cons_self))]
  have hsticky : adaptSticky raw turns (adaptPending raw s) = adaptPending raw s := by
    refine if_neg fun hadd => ?_
    rw [Option.isNone_iff_eq_none] at hadd
    have hsome : (lookup (adaptPending raw s).contextAnnotations
        "main_sticky_followup").isSome = true := hturns hadd.1
    rw [hadd.2] at hsome
    cases hsome
  have htoken : adaptTokenSession raw (adaptPending raw s) = adaptPending raw s :=
    adaptTokenSession_of_own hown
  have hchannel : adaptChannelRuntime raw (adaptPending raw s) = adaptPending raw s :=
    adaptChannelRuntime_of_adopted hadopted
  rw [adapted, hentities, hsticky, htoken, hchannel]

/-- A settled state is read of whatever carries it, but for the legacy interaction. -/
theorem deserialize_of_carries (hs : s.SettledApart) (hversion : 1 ≤ s.version)
    (h : Carries raw s) : deserializeSessionContext (.obj raw) = .ok (adaptPending raw s.reread) := by
  have hat (i : Nat) {k : Str} {v : Json} (hi : s.toDict[i]? = some (k, v)) :
      lookup raw k = some v := h.own _ (List.mem_of_getElem? hi)
  obtain ⟨turns, hturns, hsticky⟩ := h.turns
  have hnumber : asInt (lookup raw "context_version") 1 = .ok (.int s.version) := by
    rw [hat 0 rfl]
    rfl
  have hsummary : parseSessionSummary (lookup raw "session_summary") = .ok s.sessionSummary := by
    rw [hat 5 rfl]
    exact hs.summary
  have hregistry : parseEntityRegistry (lookup raw "entity_registry") = .ok s.entityRegistry := by
    rw [hat 6 rfl]
    exact parseEntityRegistry_toDict hs.entities hs.aliases
  refine deserialize_eq_ok.2 ⟨_, _, _, turns, hnumber, hsummary, hregistry, hturns, ?_⟩
  have hadopted : Adopted raw s.reread := { h.toAdopted with }
  have hpositive : ¬(adaptPending raw s.reread).version ≤ 0 := by
    show ¬s.version ≤ 0
    omega
  show adaptPending raw s.reread = currentVersion (adapted raw turns
    (ownState raw (.int s.version) s.sessionSummary s.entityRegistry))
  rw [ownState_of_carries hs h, adapted_of_adopted hadopted (hat 10 rfl) hsticky, currentVersion,
    if_neg hpositive]

omit [PythonText] [PythonFloat] in
theorem adaptPending_self (h : s.pendingInteraction = none → fallback raw = none) :
    adaptPending raw s = s := by
  cases hpending : s.pendingInteraction with
  | none =>
    rw [adaptPending, h hpending, Option.or_none]
  | some p =>
    rw [adaptPending, hpending, Option.some_or]
    cases s
    cases hpending
    rfl

omit [PythonText] [PythonFloat] in
theorem serialize_eq_toDict (hversion : 1 ≤ s.version) : serializeSessionContext s = s.toDict := by
  have hsame : max 1 (if s.version = 0 then 1 else s.version) = s.version := by
    rw [if_neg (by omega)]
    omega
  have hfound : lookup s.toDict "context_version" = some (.int s.version) :=
    lookup_at s.keys_nodup 0 rfl
  rw [serializeSessionContext, hsame, putField_eq_setField]
  refine setField_eq_self (fun p hp hk => ?_) (by rw [hfound]; rfl)
  have hp := lookup_of_mem s.keys_nodup hp
  rw [hk, hfound] at hp
  exact (Option.some.inj hp).symm

omit [PythonFloat] in
theorem carries_serialize (hversion : 1 ≤ s.version) :
    Carries (serializeSessionContext s) s ∧ fallback (serializeSessionContext s) = none := by
  rw [serialize_eq_toDict hversion]
  have habsent {key : Str} (hkey : key ∈ legacyKeys) : lookup s.toDict key = none :=
    s.lookup_legacy hkey
  refine ⟨⟨⟨?_, ?_, fun _ => ?_⟩, fun p hp => lookup_of_mem s.keys_nodup hp⟩, ?_⟩
  · intro key domain entityType hkey name hname
    have hlegacy : key ∈ legacyKeys := by
      simp only [legacyNames, List.mem_cons, List.not_mem_nil, or_false, Prod.mk.injEq] at hkey
      rcases hkey with ⟨rfl, -⟩ | ⟨rfl, -⟩ | ⟨rfl, -⟩ <;> simp [legacyKeys]
    rw [habsent hlegacy] at hname
    cases hname
  · refine ⟨.int 0, ?_, fun h => absurd h (lt_irrefl 0)⟩
    rw [habsent (by simp [legacyKeys])]
    rfl
  · rw [habsent (by simp [legacyKeys])]
    rfl
  · rw [fallback, habsent (by simp [legacyKeys])]
    rfl

section Compatible

variable {legacy : List (Str × Option Json)}

omit [PythonFloat] in
theorem legacyFields_eq_ok (h : legacyFields s = .ok legacy) : ∃ pending turns reason,
    s.pendingInteraction.mapM legacyPending = .ok pending ∧
    legacySticky s.contextAnnotations = .ok (turns, reason) ∧
    legacy = legacyPairs s pending turns reason := by
  obtain ⟨pending, hpending, h⟩ := bind_eq_ok.1 h
  obtain ⟨⟨turns, reason⟩, hsticky, h⟩ := bind_eq_ok.1 h
  exact ⟨pending, turns, reason, hpending, hsticky, (Except.ok.inj h).symm⟩

omit [PythonText] [PythonFloat] in
theorem betterEntity_cases {domain entityType : Str} {best : Option TrackedEntity}
    {e b : TrackedEntity} (h : betterEntity domain entityType best e = some b) :
    best = some b ∨
      b = e ∧ e.domain = domain ∧ e.entityType = entityType ∧ strip e.displayName ≠ [] := by
  unfold betterEntity at h
  split at h
  · exact .inl h
  · next hnamed =>
    simp only [not_or, not_not] at hnamed
    split at h
    · exact .inr ⟨(Option.some.inj h).symm, hnamed⟩
    · split at h
      · exact .inr ⟨(Option.some.inj h).symm, hnamed⟩
      · exact .inl h

omit [PythonText] [PythonFloat] in
/-- The best entity is one of the entities, and has a name. -/
theorem mem_of_bestEntity {es : List TrackedEntity} {domain entityType : Str} {b : TrackedEntity}
    (h : bestEntity es domain entityType = some b) :
    b ∈ es ∧ b.domain = domain ∧ b.entityType = entityType ∧ strip b.displayName ≠ [] := by
  have hkept (best : Option TrackedEntity)
      (hbest : es.foldl (betterEntity domain entityType) best = some b) : best = some b ∨
        b ∈ es ∧ b.domain = domain ∧ b.entityType = entityType ∧ strip b.displayName ≠ [] := by
    clear h
    induction es generalizing best with
    | nil => exact .inl hbest
    | cons e es ih =>
      rcases ih _ hbest with hbetter | ⟨hmem, hnamed⟩
      · rcases betterEntity_cases hbetter with hold | ⟨rfl, hnamed⟩
        · exact .inl hold
        · exact .inr ⟨List.mem_cons_self, hnamed⟩
      · exact .inr ⟨List.mem_cons_of_mem e hmem, hnamed⟩
  rcases hkept none h with hnone | hnamed
  · cases hnone
  · exact hnamed

omit [PythonText] [PythonFloat] in
theorem asOptionalStr_bestEntityName {domain entityType : Str} :
    asOptionalStr ((bestEntityName s domain entityType).map .str) =
      bestEntityName s domain entityType := by
  cases hname : bestEntityName s domain entityType with
  | none => rfl
  | some name =>
    obtain ⟨e, -, hread⟩ := Option.bind_eq_some_iff.1 hname
    exact asOptionalStr_trimmed (trimmed_asOptionalStr name hread)

omit [PythonFloat] in
theorem legacySticky_spec {annotations : Fields} {turns reason : Option Json}
    (h : legacySticky annotations = .ok (turns, reason)) :
    ∃ n, asInt turns 0 = .ok n ∧
      (0 < n.value → (lookup annotations "main_sticky_followup").isSome = true) := by
  unfold legacySticky at h
  split at h
  · next sticky hsticky =>
    obtain ⟨n, -, h⟩ := bind_eq_ok.1 h
    have hread : asInt (some n.toJson) 0 = .ok n := by cases n <;> rfl
    by_cases hpositive : 0 < n.value
    · rw [if_pos hpositive] at h
      obtain ⟨rfl, -⟩ := Prod.mk.inj (Except.ok.inj h)
      exact ⟨n, hread, fun _ => by rw [hsticky]; rfl⟩
    · rw [if_neg hpositive] at h
      obtain ⟨rfl, -⟩ := Prod.mk.inj (Except.ok.inj h)
      exact ⟨.int 0, rfl, fun hzero => absurd hzero (lt_irrefl 0)⟩
  · obtain ⟨rfl, -⟩ := Prod.mk.inj (Except.ok.inj h)
    exact ⟨.int 0, rfl, fun hzero => absurd hzero (lt_irrefl 0)⟩

omit [PythonText] in
/-- The name of a settled entity is written as it is. -/
theorem name_of_settled {e : TrackedEntity} (h : parseTrackedEntity e.toDict = .ok e)
    (hnamed : strip e.displayName ≠ []) : strip e.displayName = e.displayName := by
  rw [parseTrackedEntity_toDict] at h
  have hname : asNonEmptyStr (some (.str e.displayName)) [] = e.displayName :=
    congrArg TrackedEntity.displayName (Except.ok.inj h)
  rwa [asNonEmptyStr, asOptionalStr, if_neg hnamed, Option.getD_some] at hname

variable {compat : Fields} {pending turns reason : Option Json}

omit [PythonText] [PythonFloat] in
theorem legacyPairs_nodup (s : SessionContextState) (pending turns reason : Option Json) :
    ((legacyPairs s pending turns reason).map Prod.fst).Nodup := storedKeys.2.2.2.2.2.2.1

/-- What stands in the dictionary under a key: what is written there last. -/
def CompatOf (s : SessionContextState) (pending turns reason : Option Json) (compat : Fields) :
    Prop := ∀ k, lookup compat k =
  (lookup (present (legacyPairs s pending turns reason)) k).or (lookup s.toDict k)

omit [PythonFloat] in
theorem compatOf_compat (hversion : 1 ≤ s.version)
    (h : sessionContextToLegacyCompatDict s = .ok compat) : ∃ pending turns reason,
    s.pendingInteraction.mapM legacyPending = .ok pending ∧
    legacySticky s.contextAnnotations = .ok (turns, reason) ∧
    CompatOf s pending turns reason compat := by
  obtain ⟨legacy, hlegacy, hcompat⟩ := bind_eq_ok.1 h
  obtain rfl := Except.ok.inj hcompat
  obtain ⟨pending, turns, reason, hpending, hsticky, rfl⟩ := legacyFields_eq_ok hlegacy
  refine ⟨pending, turns, reason, hpending, hsticky, fun k => ?_⟩
  rw [lookup_foldl_putField ((legacyPairs_nodup s pending turns reason).sublist (keys_present _)),
    serialize_eq_toDict hversion]

omit [PythonText] [PythonFloat] in
theorem CompatOf.lookup_legacy (h : CompatOf s pending turns reason compat) (i : Nat) {k : Str}
    {v : Option Json} (hk : k ∈ legacyKeys)
    (hi : (legacyPairs s pending turns reason)[i]? = some (k, v)) : lookup compat k = v := by
  rw [h, lookup_present (legacyPairs_nodup s pending turns reason) i hi, s.lookup_legacy hk,
    Option.or_none]

omit [PythonText] [PythonFloat] in
/-- The one key of the context that is written twice is written the same. -/
theorem CompatOf.own (h : CompatOf s pending turns reason compat) :
    ∀ p ∈ s.toDict, lookup compat p.1 = some p.2 := by
  intro p hp
  have hown := lookup_of_mem s.keys_nodup hp
  rw [h, hown]
  cases hfound : lookup (present (legacyPairs s pending turns reason)) p.1 with
  | none => rfl
  | some v =>
    have hkey : p.1 = text "main_agent_token_session" := by
      have hmem : p.1 ∈ s.toDict.map Prod.fst := List.mem_map_of_mem hp
      refine storedKeys.2.2.2.2.2.2.2 p.1 hmem ?_
      refine (keys_present (legacyPairs s pending turns reason)).subset ?_
      exact List.mem_map.2 ⟨_, mem_of_lookup hfound, rfl⟩
    have htoken : lookup s.toDict p.1 = some (.obj s.mainAgentTokenSession) := by
      rw [hkey]
      exact lookup_at s.keys_nodup 10 rfl
    rw [hown] at htoken
    rw [hkey, lookup_present (legacyPairs_nodup s pending turns reason) 6 rfl, nonEmptyDict]
      at hfound
    split at hfound
    · cases hfound
    · rw [htoken, ← hfound]
      rfl

omit [PythonText] [PythonFloat] in
theorem CompatOf.name (h : CompatOf s pending turns reason compat)
    {key domain entityType name : Str} (hkey : (key, domain, entityType) ∈ legacyNames)
    (hname : name ∈ asOptionalStr (lookup compat key)) :
    bestEntityName s domain entityType = some name := by
  have hwritten (i : Nat) {k d t : Str} (hk : k ∈ legacyKeys)
      (hi : (legacyPairs s pending turns reason)[i]? = some (k, (bestEntityName s d t).map .str))
      (hread : name ∈ asOptionalStr (lookup compat k)) : bestEntityName s d t = some name := by
    rw [h.lookup_legacy i hk hi, asOptionalStr_bestEntityName] at hread
    exact hread
  simp only [legacyNames, List.mem_cons, List.not_mem_nil, or_false, Prod.mk.injEq] at hkey
  rcases hkey with ⟨rfl, rfl, rfl⟩ | ⟨rfl, rfl, rfl⟩ | ⟨rfl, rfl, rfl⟩
  · exact hwritten 1 (by simp [legacyKeys]) rfl hname
  · exact hwritten 2 (by simp [legacyKeys]) rfl hname
  · exact hwritten 3 (by simp [legacyKeys]) rfl hname

/-- The dictionary with the legacy keys carries the state that it is made of, and has no
interaction that the state has not. -/
theorem carries_legacy (hs : s.Settled) (hversion : 1 ≤ s.version)
    (h : sessionContextToLegacyCompatDict s = .ok compat) :
    Carries compat s ∧ (s.pendingInteraction = none → fallback compat = none) := by
  obtain ⟨pending, turns, reason, hpending, hsticky, hcompat⟩ := compatOf_compat hversion h
  refine ⟨⟨⟨?_, ?_, fun hnil => ?_⟩, hcompat.own⟩, fun hnone => ?_⟩
  · intro key domain entityType hkey name hname
    obtain ⟨e, he, hbound⟩ := Option.bind_eq_some_iff.1 (hcompat.name hkey hname)
    obtain ⟨hmem, hdomain, htype, hnamed⟩ := mem_of_bestEntity he
    refine ⟨e, hmem, hdomain, htype, congrArg PythonText.lower ?_⟩
    rw [asOptionalStr, if_neg hnamed, name_of_settled (hs.entities e hmem) hnamed] at hbound
    exact Option.some.inj hbound
  · obtain ⟨n, hn, hpositive⟩ := legacySticky_spec hsticky
    refine ⟨n, ?_, hpositive⟩
    rw [hcompat.lookup_legacy 4 (by simp [legacyKeys]) rfl]
    exact hn
  · rw [hcompat.lookup_legacy 7 (by simp [legacyKeys]) rfl, hnil]
    rfl
  · rw [hnone] at hpending
    obtain rfl := Except.ok.inj hpending
    rw [fallback, hcompat.lookup_legacy 0 (by simp [legacyKeys]) rfl]
    rfl

end Compatible

/-- A context is read without an exception just where its numbers can be read. -/
theorem session_context_read_iff (payload : Json) :
    (∃ s, deserializeSessionContext payload = .ok s) ↔ Readable ((asObject payload).getD []) :=
  deserialize_isOk

/-- What is read of a context is read again of what it is written to, with the legacy keys and
without them. -/
theorem session_context_round_trip (hlower : ∀ x, Trimmed x → Trimmed (PythonText.lower x))
    {payload : Json} (h : deserializeSessionContext payload = .ok s) :
    deserializeSessionContext (.obj (serializeSessionContext s)) = .ok s ∧
      ∀ compat, sessionContextToLegacyCompatDict s = .ok compat →
        deserializeSessionContext (.obj compat) = .ok s := by
  obtain ⟨hs, hversion⟩ := deserialize_settled hlower h
  constructor
  · obtain ⟨hcarries, hnone⟩ := carries_serialize (s := s) hversion
    rw [deserialize_of_carries hs.toSettledApart hversion hcarries, reread_of_settled hs,
      adaptPending_self fun _ => hnone]
  · intro compat hcompat
    obtain ⟨hcarries, hnone⟩ := carries_legacy hs hversion hcompat
    rw [deserialize_of_carries hs.toSettledApart hversion hcarries, reread_of_settled hs,
      adaptPending_self hnone]

end Carried

section Sample

theorem isSpace_asciiLower (c : CodePoint) : isSpace (asciiLower c) = isSpace c := by
  unfold asciiLower
  split
  · next hcapital =>
    simp only [isSpace]
    rw [Bool.eq_iff_iff]
    simp
    omega
  · rfl

theorem trimmed_asciiLower {x : Str} (h : Trimmed x) : Trimmed (x.map asciiLower) := by
  refine ⟨fun hnil => h.1 (List.map_eq_nil_iff.1 hnil), strip_of_ends ?_ ?_⟩
  · intro c hc
    rw [List.head?_map] at hc
    obtain ⟨d, hd, rfl⟩ := Option.map_eq_some_iff.1 hc
    rw [isSpace_asciiLower]
    exact head_strip x d (by rwa [h.2])
  · intro c hc
    rw [List.getLast?_map] at hc
    obtain ⟨d, hd, rfl⟩ := Option.map_eq_some_iff.1 hc
    rw [isSpace_asciiLower]
    exact getLast_strip x d (by rwa [h.2])

/-- A reference of before there was a context. -/
def legacyReference : Fields :=
  [("last_list_name", .str " Groceries "),
    ("pending_clarification", .obj [("intent", .str "lists.add"),
      ("missing_fields", .arr [.str "item", .null])]),
    ("main_sticky_followup_turns_remaining", .bool true),
    ("channel_session", .obj [("room", .str "kitchen")])]

theorem legacyReference_read : ∃ s,
    @deserializeSessionContext asciiText plainFloats (.obj legacyReference) = .ok s ∧
      s.entityRegistry.entities.map TrackedEntity.displayName = [text "Groceries"] ∧
      (@sessionContextToLegacyCompatDict asciiText s).toOption.isSome = true := by
  have hchecked : (@deserializeSessionContext asciiText plainFloats
      (.obj legacyReference)).toOption.any (fun s =>
        s.entityRegistry.entities.map TrackedEntity.displayName = [text "Groceries"] &&
          (@sessionContextToLegacyCompatDict asciiText s).toOption.isSome) = true := by
    decide +kernel
  obtain ⟨s, hread, hs⟩ := ok_of_any hchecked
  rw [Bool.and_eq_true, decide_eq_true_eq] at hs
  exact ⟨s, hread, hs⟩

theorem session_context_round_trip_legacyReference :
    ∃ s, @deserializeSessionContext asciiText plainFloats (.obj legacyReference) = .ok s ∧
      s.entityRegistry.entities.map TrackedEntity.displayName = [text "Groceries"] ∧
      @deserializeSessionContext asciiText plainFloats (.obj (serializeSessionContext s)) = .ok s ∧
      ∃ compat, @sessionContextToLegacyCompatDict asciiText s = .ok compat ∧
        @deserializeSessionContext asciiText plainFloats (.obj compat) = .ok s := by
  obtain ⟨s, hread, hnames, hwritten⟩ := legacyReference_read
  obtain ⟨hown, hlegacy⟩ := @session_context_round_trip asciiText plainFloats s
    (fun _ => trimmed_asciiLower) _ hread
  cases hcompat : @sessionContextToLegacyCompatDict asciiText s with
  | error e =>
    rw [hcompat] at hwritten
    cases hwritten
  | ok compat => exact ⟨s, hread, hnames, hown, compat, hcompat, hlegacy compat hcompat⟩

end Sample

end HardyAI.Context
