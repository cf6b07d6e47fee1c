import HardyAI.Context.RoundTrip
import HardyAI.Foundation.Moments

/-! The reference of a session, to which the managers of a context write it back. -/

open Foundation Foundation.Json HardyAI.Tasks HardyAI.Skills

namespace HardyAI.Context

section Texts

/-- `str(value or "").strip() or None`. -/
def cleaned (value : Option Str) : Option Str :=
  value.bind fun s => if strip s = [] then none else some (strip s)

theorem trimmed_cleaned (value : Option Str) : ∀ x ∈ cleaned value, Trimmed x := by
  intro x hx
  obtain ⟨s, -, hs⟩ := Option.bind_eq_some_iff.1 hx
  split at hs
  · cases hs
  · next hne =>
    obtain rfl := Option.some.inj hs
    exact ⟨hne, strip_strip s⟩

theorem trimmed_isoUtc (t : Instant) : Trimmed (isoUtc t) := ⟨isoUtc_ne_nil t, strip_isoUtc t⟩

end Texts

variable {ref : Fields} {s s' : SessionContextState} {k : Str}

/-- `_write_state`: a reference with the keys of a context. -/
def writeState (ref : Fields) (s : SessionContextState) : Fields :=
  (serializeSessionContext s).foldl putField ref

section Written

theorem lookup_writeState (hversion : 1 ≤ s.version) (ref : Fields) (k : Str) :
    lookup (writeState ref s) k = (lookup s.toDict k).or (lookup ref k) := by
  rw [writeState, serialize_eq_toDict hversion, lookup_foldl_putField s.keys_nodup]

/-- The keys of a context. -/
def contextKeys : List Str := (default : SessionContextState).toDict.map Prod.fst

theorem lookup_writeState_of_notMem (hversion : 1 ≤ s.version) (hk : k ∉ contextKeys) :
    lookup (writeState ref s) k = lookup ref k := by
  have habsent : lookup s.toDict k = none := lookup_eq_none.2 hk
  rw [lookup_writeState hversion, habsent, Option.none_or]

theorem notMem_contextKeys (hk : k ∈ legacyKeys) : k ∉ contextKeys := fun hown =>
  (List.nodup_append.1 storedKeys.2.2.2.2.2.1).2.2 k hown k hk rfl

theorem lookup_writeState_legacy (hversion : 1 ≤ s.version) (hk : k ∈ legacyKeys) :
    lookup (writeState ref s) k = lookup ref k :=
  lookup_writeState_of_notMem hversion (notMem_contextKeys hk)

theorem fallback_writeState (hversion : 1 ≤ s.version) :
    fallback (writeState ref s) = fallback ref := by
  rw [fallback, lookup_writeState_legacy hversion (by simp [legacyKeys]), fallback]

end Written

section Adopted

variable [PythonText] [PythonFloat]

omit [PythonFloat] in
/-- An entity stays, and what the legacy key names is there. -/
theorem mem_ensureLegacyEntity (rawValue : Option Json) (domain entityType legacyKey : Str)
    (s : SessionContextState) :
    s.entityRegistry.entities ⊆
      (ensureLegacyEntity rawValue domain entityType legacyKey s).entityRegistry.entities ∧
    ∀ name ∈ asOptionalStr rawValue,
      ∃ e ∈ (ensureLegacyEntity rawValue domain entityType legacyKey s).entityRegistry.entities,
        e.domain = domain ∧ e.entityType = entityType ∧
          PythonText.lower e.displayName = PythonText.lower name := by
  unfold ensureLegacyEntity
  cases hname : asOptionalStr rawValue with
  | none => exact ⟨fun _ he => he, fun _ hn => by cases hn⟩
  | some displayName =>
    dsimp only
    split
    · next hfound =>
      refine ⟨fun _ he => he, fun name hn => ?_⟩
      obtain rfl := Option.some.inj hn
      obtain ⟨e, he, hsame⟩ := List.any_eq_true.1 hfound
      simp only [Bool.and_eq_true, decide_eq_true_eq] at hsame
      exact ⟨e, he, hsame.1.1, hsame.1.2, hsame.2⟩
    · refine ⟨List.subset_append_left _ _, fun name hn => ?_⟩
      obtain rfl := Option.some.inj hn
      exact ⟨_, List.mem_append_right _ List.mem_cons_self, rfl, rfl, rfl⟩

omit [PythonFloat] in
theorem named_adaptEntities (raw : Fields) (s : SessionContextState) :
    ∀ key domain entityType, (key, domain, entityType) ∈ legacyNames →
      ∀ name ∈ asOptionalStr (lookup raw key), ∃ e ∈ (adaptEntities raw s).entityRegistry.entities,
        e.domain = domain ∧ e.entityType = entityType ∧
          PythonText.lower e.displayName = PythonText.lower name := by
  intro key domain entityType hkey name hname
  have hlist := mem_ensureLegacyEntity (lookup raw "last_list_name") "lists" "list"
    "last_list_name" s
  have hswitch := mem_ensureLegacyEntity (lookup raw "last_switch_name") "home" "switch"
    "last_switch_name" (ensureLegacyEntity (lookup raw "last_list_name") "lists" "list"
      "last_list_name" s)
  have hperson := mem_ensureLegacyEntity (lookup raw "last_calendar_person") "calendar" "person"
    "last_calendar_person" (ensureLegacyEntity (lookup raw "last_switch_name") "home" "switch"
      "last_switch_name" (ensureLegacyEntity (lookup raw "last_list_name") "lists" "list"
        "last_list_name" s))
  simp only [legacyNames, List.mem_cons, List.not_mem_nil, or_false, Prod.mk.injEq] at hkey
  rcases hkey with ⟨rfl, rfl, rfl⟩ | ⟨rfl, rfl, rfl⟩ | ⟨rfl, rfl, rfl⟩
  · obtain ⟨e, he, hnamed⟩ := hlist.2 name hname
    exact ⟨e, hperson.1 (hswitch.1 he), hnamed⟩
  · obtain ⟨e, he, hnamed⟩ := hswitch.2 name hname
    exact ⟨e, hperson.1 he, hnamed⟩
  · exact hperson.2 name hname

omit [PythonFloat] in
theorem entityRegistry_adapted (raw : Fields) (turns : Whole) (s : SessionContextState) :
    (currentVersion (adapted raw turns s)).entityRegistry =
      (adaptEntities raw (adaptPending raw s)).entityRegistry := by
  unfold currentVersion adapted adaptChannelRuntime adaptTokenSession adaptSticky
  split_ifs <;> rfl

omit [PythonFloat] in
theorem sticky_adapted (raw : Fields) (turns : Whole) (s : SessionContextState)
    (hturns : 0 < turns.value) :
    (lookup (currentVersion (adapted raw turns s)).contextAnnotations
      "main_sticky_followup").isSome = true := by
  have hsame : (currentVersion (adapted raw turns s)).contextAnnotations =
      (adaptSticky raw turns (adaptEntities raw (adaptPending raw s))).contextAnnotations := by
    unfold currentVersion adapted adaptChannelRuntime adaptTokenSession
    split_ifs <;> rfl
  rw [hsame, adaptSticky]
  split
  · exact congrArg Option.isSome (lookup_putField _ _ _)
  · next hkept =>
    rw [Bool.eq_iff_iff]
    simpa [hturns, Option.isNone_iff_eq_none, Option.isSome_iff_ne_none] using hkept

omit [PythonFloat] in
theorem channel_adapted (raw : Fields) (turns : Whole) (s : SessionContextState)
    (hnil : (currentVersion (adapted raw turns s)).channelRuntime = []) :
    parseDict (lookup raw "channel_session") = [] := by
  have hsame : (currentVersion (adapted raw turns s)).channelRuntime =
      (adapted raw turns s).channelRuntime := by
    unfold currentVersion
    split_ifs <;> rfl
  rw [hsame, adapted, adaptChannelRuntime] at hnil
  split at hnil
  · exact hnil
  · next hsome => exact absurd hnil hsome

/-- What is read of a dictionary has whatever its legacy keys have. -/
theorem adopted_of_deserialize (h : deserializeSessionContext (.obj ref) = .ok s) :
    Adopted ref s := by
  obtain ⟨version, summary, registry, turns, -, -, -, hturns, rfl⟩ := deserialize_eq_ok.1 h
  refine ⟨?_, ⟨turns, hturns, sticky_adapted _ _ _⟩, channel_adapted _ _ _⟩
  rw [entityRegistry_adapted]
  exact named_adaptEntities ref _

omit [PythonFloat] in
theorem pendingInteraction_adapted (raw : Fields) (turns : Whole) (s : SessionContextState) :
    (currentVersion (adapted raw turns s)).pendingInteraction =
      s.pendingInteraction.or (fallback raw) := by
  have hkept (rawValue : Option Json) (domain entityType legacyKey : Str)
      (s : SessionContextState) :
      (ensureLegacyEntity rawValue domain entityType legacyKey s).pendingInteraction =
        s.pendingInteraction := by
    unfold ensureLegacyEntity
    split
    · rfl
    · split <;> rfl
  have hsame : (currentVersion (adapted raw turns s)).pendingInteraction =
      (adaptEntities raw (adaptPending raw s)).pendingInteraction := by
    unfold currentVersion adapted adaptChannelRuntime adaptTokenSession adaptSticky
    split_ifs <;> rfl
  rw [hsame, adaptEntities, hkept, hkept, hkept]
  rfl

/-- Where no interaction is read the legacy key has none either. -/
theorem fallback_of_none (h : deserializeSessionContext (.obj ref) = .ok s)
    (hnone : s.pendingInteraction = none) : fallback ref = none := by
  obtain ⟨version, summary, registry, turns, -, -, -, -, rfl⟩ := deserialize_eq_ok.1 h
  rw [pendingInteraction_adapted] at hnone
  exact (Option.or_eq_none_iff.1 hnone).2

end Adopted

section Rewritten

variable [PythonText] [PythonFloat]

/-- A change to a state that leaves alone what its legacy keys name. -/
structure KeepsAdopted (s s' : SessionContextState) : Prop where
  version : s'.version = s.version
  registry : s'.entityRegistry = s.entityRegistry
  channel : s'.channelRuntime = s.channelRuntime
  sticky : (lookup s.contextAnnotations "main_sticky_followup").isSome = true →
    (lookup s'.contextAnnotations "main_sticky_followup").isSome = true

/-- A changed state is read as it was written, but for the legacy interaction. -/
theorem deserialize_writeState (hlower : ∀ x, Trimmed x → Trimmed (PythonText.lower x))
    (hread : deserializeSessionContext (.obj ref) = .ok s) (hs' : s'.SettledApart)
    (h : KeepsAdopted s s') :
    deserializeSessionContext (.obj (writeState ref s')) = .ok (adaptPending ref s'.reread) := by
  have hversion : 1 ≤ s'.version := h.version ▸ (deserialize_settled hlower hread).2
  have hadopted := adopted_of_deserialize hread
  have hlegacy {key : Str} (hk : key ∈ legacyKeys) :
      lookup (writeState ref s') key = lookup ref key := lookup_writeState_legacy hversion hk
  have hcarries : Carries (writeState ref s') s' := by
    refine ⟨⟨?_, ?_, ?_⟩, fun p hp => ?_⟩
    · intro key domain entityType hkey
      have hk : key ∈ legacyKeys := by
        simp only [legacyNames, List.mem_cons, List.not_mem_nil, or_false, Prod.mk.injEq] at hkey
        rcases hkey with ⟨rfl, -⟩ | ⟨rfl, -⟩ | ⟨rfl, -⟩ <;> simp [legacyKeys]
      rw [hlegacy hk, h.registry]
      exact hadopted.names key domain entityType hkey
    · obtain ⟨turns, hturns, hsticky⟩ := hadopted.turns
      rw [hlegacy (by simp [legacyKeys])]
      exact ⟨turns, hturns, fun hpositive => h.sticky (hsticky hpositive)⟩
    · rw [hlegacy (by simp [legacyKeys]), h.channel]
      exact hadopted.channel
    · rw [lookup_writeState hversion, lookup_of_mem s'.keys_nodup hp, Option.some_or]
  rw [deserialize_of_carries hs' hversion hcarries]
  exact congrArg (fun f => Except.ok { s'.reread with
    pendingInteraction := s'.pendingInteraction.or f }) (fallback_writeState hversion)

end Rewritten

end HardyAI.Context
