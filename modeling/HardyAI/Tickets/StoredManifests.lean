import HardyAI.Foundation.JsonReload
import HardyAI.Foundation.TextForms
import HardyAI.Tickets.AsyncReceipts

/-! A manifest that was accepted is in normal form: reading it again, or reading what was stored
of it, gives the same manifest, and so the same hash. -/

open Foundation Foundation.Json HardyAI.Jobs

namespace HardyAI.Tickets

section Words

variable [PythonText]

theorem strippedText_str (s : Str) : strippedText (some (.str s)) = .ok (strip s) := by
  by_cases hs : s = []
  · subst hs
    rfl
  · simp [strippedText, textOr, truthy, hs, pyStr, Except.map]

theorem strippedText_folded {s : Str} (h : Folded s) : strippedText (some (.str s)) = .ok s := by
  rw [strippedText_str, h.strip]

theorem foldedText_folded {s : Str} (h : Folded s) : foldedText (some (.str s)) = .ok s := by
  rw [foldedText, strippedText_folded h]
  exact congrArg Except.ok h.casefold

omit [PythonText] in
/-- The characters of identifiers and of hashes are ASCII and no blanks. -/
theorem wordCharacters : isAscii (text "_.:/-") = true ∧ isFolded (text "0123456789abcdef") = true ∧
    ∀ n : Fin 128, idTail ⟨n.val, by omega⟩ = true → isSpace ⟨n.val, by omega⟩ = false := by
  decide +kernel

omit [PythonText] in
theorem idTail_lt {c : CodePoint} (h : idTail c = true) : c.val < 128 := by
  simp only [idTail, idHead, Bool.or_eq_true, Bool.and_eq_true, decide_eq_true_eq] at h
  rcases h with h | h
  · omega
  · have hmem : c ∈ text "_.:/-" := by simpa using h
    simpa using List.all_eq_true.1 wordCharacters.1 c hmem

omit [PythonText] in
theorem opaqueId_spec {s : Str} (h : opaqueId s = true) :
    ∀ c ∈ s, c.val < 128 ∧ isSpace c = false := by
  have htail : ∀ c ∈ s, idTail c = true := by
    cases s with
    | nil => cases h
    | cons c cs =>
      rw [opaqueId, Bool.and_eq_true, Bool.and_eq_true, List.all_eq_true] at h
      intro d hd
      rcases List.mem_cons.1 hd with rfl | hd
      · rw [idTail, h.1.1, Bool.true_or]
      · exact h.2 d hd
  intro c hc
  exact ⟨idTail_lt (htail c hc), wordCharacters.2.2 ⟨c.val, idTail_lt (htail c hc)⟩ (htail c hc)⟩

omit [PythonText] in
theorem folded_of_hexHash {s : Str} (h : hexHash s = true) : Folded s := by
  rw [hexHash, Bool.and_eq_true, List.all_eq_true] at h
  have hdigits : Folded (text "0123456789abcdef") := folded_of_isFolded wordCharacters.2.1
  have hmem (c : CodePoint) (hc : c ∈ s) : c ∈ text "0123456789abcdef" := by simpa using h.2 c hc
  exact folded_of_forall fun c hc => ⟨by simpa using List.all_eq_true.1 hdigits.ascii c (hmem c hc),
    hdigits.lower c (hmem c hc), hdigits.solid c (hmem c hc)⟩

theorem requireHash_eq_ok {value : Option Json} {code : String} {s : Str}
    (h : requireHash value code = .ok s) : hexHash s = true := by
  obtain ⟨raw, -, h⟩ := bind_eq_ok.1 h
  obtain ⟨u, hhex, h⟩ := bind_eq_ok.1 h
  rw [← Except.ok.inj h]
  exact require_eq_ok.1 hhex

theorem requireId_eq_ok {value : Option Json} {code : String} {s : Str}
    (h : requireId value code = .ok s) : opaqueId s = true := by
  obtain ⟨raw, -, h⟩ := bind_eq_ok.1 h
  obtain ⟨u, hid, h⟩ := bind_eq_ok.1 h
  rw [← Except.ok.inj h]
  exact require_eq_ok.1 hid

theorem requireHash_str {s : Str} (h : hexHash s = true) (code : String) :
    requireHash (some (.str s)) code = .ok s := by
  have hfolded := folded_of_hexHash h
  refine bind_eq_ok.2 ⟨s, strippedText_folded hfolded, ?_⟩
  rw [hfolded.casefold]
  exact bind_eq_ok.2 ⟨(), require_eq_ok.2 h, rfl⟩

theorem requireId_str {s : Str} (h : opaqueId s = true) (code : String) :
    requireId (some (.str s)) code = .ok s := by
  have hstrip : strippedText (some (.str s)) = .ok s := by
    rw [strippedText_str, strip_of_forall fun c hc => (opaqueId_spec h c hc).2]
  exact bind_eq_ok.2 ⟨s, hstrip, bind_eq_ok.2 ⟨(), require_eq_ok.2 h, rfl⟩⟩

omit [PythonText] in
theorem encodable_of_hexHash {s : Str} (h : hexHash s = true) : encodable s = true :=
  encodable_of_isAscii (folded_of_hexHash h).ascii

omit [PythonText] in
theorem encodable_of_opaqueId {s : Str} (h : opaqueId s = true) : encodable s = true :=
  encodable_of_isAscii (List.all_eq_true.2 fun c hc => by simpa using (opaqueId_spec h c hc).1)

end Words

section Reading

theorem sameFields_of_reread {fields fields' : List (Str × Json)} {f : Json → Json}
    {names : List Str} (h : sameFields fields names = true)
    (hlookup : ∀ k, lookup fields' k = (lookup fields k).map f)
    (hkeys : ∀ k, k ∈ fields'.map Prod.fst ↔ k ∈ fields.map Prod.fst) :
    sameFields fields' names = true := by
  rw [sameFields, Bool.and_eq_true, List.all_eq_true, List.all_eq_true] at h ⊢
  refine ⟨fun p hp => ?_, fun k hk => ?_⟩
  · obtain ⟨q, hq, hkey⟩ := List.mem_map.1 ((hkeys p.1).1 (List.mem_map_of_mem hp))
    rw [← hkey]
    exact h.1 q hq
  · rw [hlookup, Option.isSome_map]
    exact h.2 k hk

variable [PythonText]

structure ManifestChild.Normal (c : ManifestChild) : Prop where
  childOperationId : opaqueId c.childOperationId = true
  targetHash : hexHash c.targetHash = true
  argumentsHash : hexHash c.argumentsHash = true

/-- The children from a position on, where some identifiers are taken. -/
def NormalChildren : List Str → Nat → List ManifestChild → Prop
  | _, _, [] => True
  | seen, position, c :: cs =>
    c.Normal ∧ c.childIndex = position ∧ c.childOperationId ∉ seen ∧
      NormalChildren (c.childOperationId :: seen) (position + 1) cs

theorem normal_of_normalizeChild {seen : List Str} {position : Nat} {raw : Json}
    {c : ManifestChild} (h : normalizeChild seen position raw = .ok c) :
    c.Normal ∧ c.childIndex = position ∧ c.childOperationId ∉ seen := by
  obtain ⟨fields, -, h⟩ := bind_eq_ok.1 h
  obtain ⟨-, -, h⟩ := bind_eq_ok.1 h
  obtain ⟨-, -, h⟩ := bind_eq_ok.1 h
  obtain ⟨childOperationId, hid, h⟩ := bind_eq_ok.1 h
  obtain ⟨u, hfresh, h⟩ := bind_eq_ok.1 h
  obtain ⟨targetHash, htarget, h⟩ := bind_eq_ok.1 h
  obtain ⟨argumentsHash, harguments, h⟩ := bind_eq_ok.1 h
  obtain rfl := Except.ok.inj h
  have hnew : childOperationId ∉ seen := by simpa using require_eq_ok.1 hfresh
  exact ⟨⟨requireId_eq_ok hid, requireHash_eq_ok htarget, requireHash_eq_ok harguments⟩, rfl, hnew⟩

theorem normal_of_normalizeChildren {raws : List Json} : ∀ {seen position} {cs : List ManifestChild},
    normalizeChildren seen position raws = .ok cs → NormalChildren seen position cs := by
  induction raws with
  | nil =>
    intro seen position cs h
    obtain rfl := Except.ok.inj h
    trivial
  | cons raw rest ih =>
    intro seen position cs h
    obtain ⟨c, hc, h⟩ := bind_eq_ok.1 h
    obtain ⟨cs', hcs, h⟩ := bind_eq_ok.1 h
    obtain rfl := Except.ok.inj h
    obtain ⟨hnormal, hindex, hfresh⟩ := normal_of_normalizeChild hc
    exact ⟨hnormal, hindex, hfresh, ih hcs⟩

omit [PythonText] in
/-- No field is named twice. -/
theorem fieldNames : (childFields.Nodup ∧ childFields.all encodable = true) ∧
    manifestFields.Nodup ∧ manifestFields.all encodable = true := by
  decide +kernel

variable {f : Json → Json} (hf : Rereading f)
include hf

omit [PythonText] in
/-- The fields of a child as they are read back. -/
theorem child_reread {c : ManifestChild} (hc : c.Normal) : ∃ fields, f c.toJson = .obj fields ∧
    sameFields fields childFields = true ∧
    lookup fields "child_index" = some (.int c.childIndex) ∧
    lookup fields "child_operation_id" = some (.str c.childOperationId) ∧
    lookup fields "target_hash" = some (.str c.targetHash) ∧
    lookup fields "arguments_hash" = some (.str c.argumentsHash) := by
  obtain ⟨fields, hobj, hlookup, hkeys⟩ := hf.obj
    [("child_operation_id", .str c.childOperationId), ("child_index", .int c.childIndex),
      ("target_hash", .str c.targetHash), ("arguments_hash", .str c.argumentsHash)]
    fieldNames.1.1 fieldNames.1.2
  refine ⟨fields, hobj, sameFields_of_reread rfl hlookup hkeys, ?_, ?_, ?_, ?_⟩
  · rw [hlookup]
    exact congrArg some (hf.int _)
  · rw [hlookup]
    exact congrArg some (hf.str _ (encodable_of_opaqueId hc.childOperationId))
  · rw [hlookup]
    exact congrArg some (hf.str _ (encodable_of_hexHash hc.targetHash))
  · rw [hlookup]
    exact congrArg some (hf.str _ (encodable_of_hexHash hc.argumentsHash))

theorem normalizeChild_reread {c : ManifestChild} (hc : c.Normal) {seen : List Str}
    (hfresh : c.childOperationId ∉ seen) :
    normalizeChild seen c.childIndex (f c.toJson) = .ok c := by
  obtain ⟨fields, hobj, hshape, hindex, hid, htarget, harguments⟩ := child_reread hf hc
  rw [hobj]
  refine bind_eq_ok.2 ⟨fields, rfl, bind_eq_ok.2 ⟨(), require_eq_ok.2 hshape, ?_⟩⟩
  refine bind_eq_ok.2 ⟨(), require_eq_ok.2 (by simp [hindex, plainInt]), ?_⟩
  rw [hid, htarget, harguments]
  refine bind_eq_ok.2 ⟨_, requireId_str hc.childOperationId _, ?_⟩
  refine bind_eq_ok.2 ⟨(), require_eq_ok.2 (by simpa using hfresh), ?_⟩
  exact bind_eq_ok.2 ⟨_, requireHash_str hc.targetHash _,
    bind_eq_ok.2 ⟨_, requireHash_str hc.argumentsHash _, rfl⟩⟩

theorem normalizeChildren_reread {cs : List ManifestChild} : ∀ {seen position},
    NormalChildren seen position cs →
      normalizeChildren seen position ((cs.map ManifestChild.toJson).map f) = .ok cs := by
  induction cs with
  | nil => exact fun _ => rfl
  | cons c cs ih =>
    rintro seen position ⟨hnormal, rfl, hfresh, hrest⟩
    exact bind_eq_ok.2 ⟨c, normalizeChild_reread hf hnormal hfresh,
      bind_eq_ok.2 ⟨cs, ih hrest, rfl⟩⟩

end Reading

section Manifests

structure ExecutionManifest.Normal (m : ExecutionManifest) : Prop where
  parentOperationId : opaqueId m.parentOperationId = true
  authorizationBindingHash : hexHash m.authorizationBindingHash = true
  skillId : opaqueId m.skillId = true
  toolId : opaqueId m.toolId = true
  contractVersion : 1 ≤ m.contractVersion
  descriptorHash : hexHash m.descriptorHash = true
  resourceVersion : 1 ≤ m.resourceVersion
  parentArgumentsHash : hexHash m.parentArgumentsHash = true
  children : NormalChildren [] 0 m.children
  some_child : m.children ≠ []
  cardinality : m.effectCardinality = .independentBatch ∨ m.children.length = 1
  recoveryManifestHash : ∀ h ∈ m.recoveryManifestHash, hexHash h = true
  persistence : m.persistence ≠ .noStore

variable [PythonText]

omit [PythonText] in
theorem requireVersion_eq_ok {value : Option Json} {code : String} {n : Int}
    (h : requireVersion value code = .ok n) : 1 ≤ n := by
  unfold requireVersion at h
  split at h
  · split at h
    · next hle =>
      rw [← Except.ok.inj h]
      exact hle
    · cases h
  · cases h

theorem normalizeRecoveryHash_eq_ok {value : Option Json} {hash : Option Str}
    (h : normalizeRecoveryHash value = .ok hash) : ∀ s ∈ hash, hexHash s = true := by
  unfold normalizeRecoveryHash at h
  split at h
  · rw [← Except.ok.inj h]
    exact fun s hs => absurd hs (Option.not_mem_none s)
  · rw [← Except.ok.inj h]
    exact fun s hs => absurd hs (Option.not_mem_none s)
  · obtain ⟨s, hs, rfl⟩ := map_eq_ok.1 h
    intro s' hs'
    rw [← Option.some.inj hs']
    exact requireHash_eq_ok hs

theorem persistence_of_normalizeHeader {fields : List (Str × Json)} {c : EffectCardinality}
    {s : Sensitivity} {p : Persistence} (h : normalizeHeader fields = .ok (c, s, p)) :
    p ≠ .noStore := by
  obtain ⟨-, -, h⟩ := bind_eq_ok.1 h
  obtain ⟨-, -, h⟩ := bind_eq_ok.1 h
  obtain ⟨cardinalityText, -, h⟩ := bind_eq_ok.1 h
  obtain ⟨c', -, h⟩ := bind_eq_ok.1 h
  obtain ⟨sensitivityText, -, h⟩ := bind_eq_ok.1 h
  obtain ⟨persistenceText, -, h⟩ := bind_eq_ok.1 h
  obtain ⟨s', -, h⟩ := bind_eq_ok.1 h
  obtain ⟨p', -, h⟩ := bind_eq_ok.1 h
  obtain ⟨u, hstore, h⟩ := bind_eq_ok.1 h
  obtain ⟨-, hrest⟩ := Prod.mk.inj (Except.ok.inj h)
  obtain ⟨-, rfl⟩ := Prod.mk.inj hrest
  simpa using require_eq_ok.1 hstore

theorem normalizeChildren_length {raws : List Json} : ∀ {seen position} {cs : List ManifestChild},
    normalizeChildren seen position raws = .ok cs → cs.length = raws.length := by
  induction raws with
  | nil =>
    intro seen position cs h
    rw [← Except.ok.inj h]
    rfl
  | cons raw rest ih =>
    intro seen position cs h
    obtain ⟨c, -, h⟩ := bind_eq_ok.1 h
    obtain ⟨cs', hcs, h⟩ := bind_eq_ok.1 h
    rw [← Except.ok.inj h, List.length_cons, List.length_cons, ih hcs]

omit [PythonText] in
theorem rawChildren_ne_nil {fields : List (Str × Json)} {raws : List Json}
    (h : rawChildren fields = .ok raws) : raws ≠ [] := by
  unfold rawChildren at h
  split at h
  · rw [← Except.ok.inj h]
    exact List.cons_ne_nil _ _
  · cases h

theorem normal_of_readManifest {fields : List (Str × Json)} {m : ExecutionManifest}
    (h : readManifest fields = .ok m) : m.Normal := by
  obtain ⟨⟨c, s, p⟩, hheader, h⟩ := bind_eq_ok.1 h
  obtain ⟨raws, hraws, h⟩ := bind_eq_ok.1 h
  obtain ⟨children, hchildren, h⟩ := bind_eq_ok.1 h
  obtain ⟨-, -, h⟩ := bind_eq_ok.1 h
  obtain ⟨u, hcount, h⟩ := bind_eq_ok.1 h
  obtain ⟨recovery, hrecovery, h⟩ := bind_eq_ok.1 h
  obtain ⟨contractVersion, hcontract, h⟩ := bind_eq_ok.1 h
  obtain ⟨resourceVersion, hresource, h⟩ := bind_eq_ok.1 h
  obtain ⟨parentId, hparent, h⟩ := bind_eq_ok.1 h
  obtain ⟨authorization, hauthorization, h⟩ := bind_eq_ok.1 h
  obtain ⟨skillId, hskill, h⟩ := bind_eq_ok.1 h
  obtain ⟨toolId, htool, h⟩ := bind_eq_ok.1 h
  obtain ⟨descriptor, hdescriptor, h⟩ := bind_eq_ok.1 h
  obtain ⟨parentArguments, harguments, h⟩ := bind_eq_ok.1 h
  obtain rfl := Except.ok.inj h
  have hsome : children ≠ [] := by
    rw [← List.length_pos_iff_ne_nil, normalizeChildren_length hchildren, List.length_pos_iff_ne_nil]
    exact rawChildren_ne_nil hraws
  exact {
    parentOperationId := requireId_eq_ok hparent
    authorizationBindingHash := requireHash_eq_ok hauthorization
    skillId := requireId_eq_ok hskill
    toolId := requireId_eq_ok htool
    contractVersion := requireVersion_eq_ok hcontract
    descriptorHash := requireHash_eq_ok hdescriptor
    resourceVersion := requireVersion_eq_ok hresource
    parentArgumentsHash := requireHash_eq_ok harguments
    children := normal_of_normalizeChildren hchildren
    some_child := hsome
    cardinality := by simpa using require_eq_ok.1 hcount
    recoveryManifestHash := normalizeRecoveryHash_eq_ok hrecovery
    persistence := persistence_of_normalizeHeader hheader }

omit [PythonText] in
/-- The words of a header are in the case in which they are looked up. -/
theorem headerWords :
    (∀ c : EffectCardinality, isFolded c.value = true ∧ EffectCardinality.ofText c.value = some c) ∧
    (∀ s : Sensitivity, isFolded s.value = true ∧ Sensitivity.ofText s.value = some s) ∧
    ∀ p : Persistence, isFolded p.value = true ∧ Persistence.ofText p.value = some p := by
  refine ⟨fun c => ?_, fun s => ?_, fun p => ?_⟩
  · cases c <;> decide +kernel
  · cases s <;> decide +kernel
  · cases p <;> decide +kernel

omit [PythonText] in
theorem requireVersion_int {n : Int} (h : 1 ≤ n) (code : String) :
    requireVersion (some (.int n)) code = .ok n := if_pos h

theorem normalizeRecoveryHash_optionalText {hash : Option Str}
    (h : ∀ s ∈ hash, hexHash s = true) : normalizeRecoveryHash (some (optionalText hash)) = .ok hash := by
  cases hash with
  | none => rfl
  | some s => exact map_eq_ok.2 ⟨s, requireHash_str (h s rfl) _, rfl⟩

variable {f : Json → Json} (hf : Rereading f)
include hf

/-- An accepted manifest is read again as it is. -/
theorem readManifest_reread {m : ExecutionManifest} (hm : m.Normal) :
    ∃ fields, f (.obj m.fields) = .obj fields ∧ readManifest fields = .ok m := by
  obtain ⟨fields, hobj, hlookup, hkeys⟩ := hf.obj m.fields
    fieldNames.2.1 fieldNames.2.2
  refine ⟨fields, hobj, ?_⟩
  have hint {key : Str} {n : Int} (h : lookup m.fields key = some (.int n)) :
      lookup fields key = some (.int n) := by
    rw [hlookup, h, Option.map_some, hf.int]
  have hstr {key s : Str} (h : lookup m.fields key = some (.str s)) (hs : encodable s = true) :
      lookup fields key = some (.str s) := by
    rw [hlookup, h, Option.map_some, hf.str s hs]
  have hfolded {key s : Str} (h : lookup m.fields key = some (.str s)) (hs : Folded s) :
      foldedText (lookup fields key) = .ok s := by
    rw [hstr h (encodable_of_isAscii hs.ascii), foldedText_folded hs]
  have hhash {key s : Str} (h : lookup m.fields key = some (.str s)) (hs : hexHash s = true)
      (code : String) : requireHash (lookup fields key) code = .ok s := by
    rw [hstr h (encodable_of_hexHash hs), requireHash_str hs]
  have hid {key s : Str} (h : lookup m.fields key = some (.str s)) (hs : opaqueId s = true)
      (code : String) : requireId (lookup fields key) code = .ok s := by
    rw [hstr h (encodable_of_opaqueId hs), requireId_str hs]
  have hheader : normalizeHeader fields = .ok (m.effectCardinality, m.sensitivity, m.persistence) := by
    refine bind_eq_ok.2 ⟨(), require_eq_ok.2 (sameFields_of_reread rfl hlookup hkeys), ?_⟩
    refine bind_eq_ok.2 ⟨(), require_eq_ok.2 ?_, ?_⟩
    · rw [hint (n := 1) rfl]
      rfl
    obtain ⟨hcardinality, hcardinality'⟩ := headerWords.1 m.effectCardinality
    obtain ⟨hsensitivity, hsensitivity'⟩ := headerWords.2.1 m.sensitivity
    obtain ⟨hpersistence, hpersistence'⟩ := headerWords.2.2 m.persistence
    refine bind_eq_ok.2 ⟨_, hfolded rfl (folded_of_isFolded hcardinality), ?_⟩
    refine bind_eq_ok.2 ⟨m.effectCardinality, by rw [hcardinality']; rfl, ?_⟩
    refine bind_eq_ok.2 ⟨_, hfolded rfl (folded_of_isFolded hsensitivity), ?_⟩
    refine bind_eq_ok.2 ⟨_, hfolded rfl (folded_of_isFolded hpersistence), ?_⟩
    refine bind_eq_ok.2 ⟨m.sensitivity, by rw [hsensitivity']; rfl, ?_⟩
    refine bind_eq_ok.2 ⟨m.persistence, by rw [hpersistence']; rfl, ?_⟩
    exact bind_eq_ok.2 ⟨(), require_eq_ok.2 (by simpa using hm.persistence), rfl⟩
  have hraw : rawChildren fields = .ok ((m.children.map ManifestChild.toJson).map f) := by
    have hchildren : lookup fields "children" =
        some (.arr ((m.children.map ManifestChild.toJson).map f)) := by
      rw [hlookup]
      exact congrArg some (hf.arr _)
    rw [rawChildren, hchildren]
    cases hcs : m.children with
    | nil => exact absurd hcs hm.some_child
    | cons c cs => rfl
  have hrecovery : normalizeRecoveryHash (lookup fields "recovery_manifest_hash") =
      .ok m.recoveryManifestHash := by
    have hvalue : lookup fields "recovery_manifest_hash" =
        some (optionalText m.recoveryManifestHash) := by
      cases hhash : m.recoveryManifestHash with
      | none =>
        rw [hlookup]
        show some (f (optionalText m.recoveryManifestHash)) = _
        rw [hhash]
        exact congrArg some hf.null
      | some s =>
        refine hstr ?_ (encodable_of_hexHash (hm.recoveryManifestHash s hhash))
        show some (optionalText m.recoveryManifestHash) = _
        rw [hhash]
        rfl
    rw [hvalue, normalizeRecoveryHash_optionalText hm.recoveryManifestHash]
  refine bind_eq_ok.2 ⟨_, hheader, bind_eq_ok.2 ⟨_, hraw, ?_⟩⟩
  refine bind_eq_ok.2 ⟨m.children, normalizeChildren_reread hf hm.children, ?_⟩
  refine bind_eq_ok.2 ⟨(), require_eq_ok.2 ?_, ?_⟩
  · rw [hint (n := m.children.length) rfl]
    simp [plainInt]
  refine bind_eq_ok.2 ⟨(), require_eq_ok.2 (by simpa using hm.cardinality), ?_⟩
  refine bind_eq_ok.2 ⟨_, hrecovery, ?_⟩
  refine bind_eq_ok.2 ⟨m.contractVersion, ?_, bind_eq_ok.2 ⟨m.resourceVersion, ?_, ?_⟩⟩
  · rw [hint (n := m.contractVersion) rfl, requireVersion_int hm.contractVersion]
  · rw [hint (n := m.resourceVersion) rfl, requireVersion_int hm.resourceVersion]
  refine bind_eq_ok.2 ⟨_, hid rfl hm.parentOperationId _, ?_⟩
  refine bind_eq_ok.2 ⟨_, hhash rfl hm.authorizationBindingHash _, ?_⟩
  refine bind_eq_ok.2 ⟨_, hid rfl hm.skillId _, bind_eq_ok.2 ⟨_, hid rfl hm.toolId _, ?_⟩⟩
  exact bind_eq_ok.2 ⟨_, hhash rfl hm.descriptorHash _,
    bind_eq_ok.2 ⟨_, hhash rfl hm.parentArgumentsHash _, rfl⟩⟩

theorem normalizeExecutionManifest_reread {v : Json} {m : ExecutionManifest}
    (h : normalizeExecutionManifest v = .ok m) :
    normalizeExecutionManifest (f (.obj m.fields)) = .ok m := by
  obtain ⟨raw, rfl⟩ : ∃ raw, v = .obj raw := by
    cases v with
    | obj raw => exact ⟨raw, rfl⟩
    | _ => cases h
  obtain ⟨m', hm, h⟩ := bind_eq_ok.1 h
  obtain ⟨u, hbounded, h⟩ := bind_eq_ok.1 h
  obtain rfl := Except.ok.inj h
  obtain ⟨fields, hobj, hread⟩ := readManifest_reread hf (normal_of_readManifest hm)
  rw [hobj]
  exact bind_eq_ok.2 ⟨m', hread, bind_eq_ok.2 ⟨u, hbounded, rfl⟩⟩

end Manifests

section Hashes

variable [PythonText]

theorem contentHash_of_bounded {fields : List (Str × Json)} {u : Unit}
    (h : boundedControlPayload fields = .ok u) :
    (∃ hash, contentHash (.obj fields) = .ok hash) ∧ hasLongInt (.obj fields) = false := by
  obtain ⟨-, -, h⟩ := bind_eq_ok.1 h
  obtain ⟨encoded, hdump, h⟩ := bind_eq_ok.1 h
  obtain ⟨bytes, hbytes, -⟩ := bind_eq_ok.1 h
  refine ⟨⟨_, bind_eq_ok.2 ⟨encoded, hdump, bind_eq_ok.2 ⟨bytes, hbytes, rfl⟩⟩⟩, ?_⟩
  by_contra hlong
  rw [Bool.not_eq_false] at hlong
  rw [dump, if_pos hlong] at hdump
  cases hdump

omit [PythonText] in
theorem bind_of_ok {α β : Type} {x : Except PyError α} {a : α} {g : α → Except PyError β}
    (h : x = .ok a) : x >>= g = g a := by
  rw [h]
  rfl

omit [PythonText] in
theorem utf8_of_isAscii {s : Str} (h : isAscii s = true) : utf8 s = .ok (s.map Fin.val) := by
  have hchar : ∀ c ∈ s, utf8Char c = [c.val] := by
    intro c hc
    have hlt : c.val < 128 := by simpa using List.all_eq_true.1 h c hc
    exact if_pos hlt
  rw [utf8, if_pos (encodable_of_isAscii h)]
  congr 1
  induction s with
  | nil => rfl
  | cons c s ih =>
    have hrest : isAscii s = true := (Bool.and_eq_true_iff.1 h).2
    rw [List.flatMap_cons, hchar c List.mem_cons_self, List.map_cons,
      ih hrest fun d hd => hchar d (List.mem_cons_of_mem _ hd)]
    rfl

/-- The dump of a payload that the digit limit lets pass, as its bound and its hash read it. -/
theorem encoded_of_render (hfloat : ∀ bits, isAscii (PythonText.floatRepr bits) = true) {j : Json}
    {s : Str} (hlong : j.hasLongInt = false) (hrender : j.render true = s) :
    dump true j = .ok s ∧ utf8 s = .ok (s.map Fin.val) := by
  refine ⟨?_, utf8_of_isAscii (hrender ▸ isAscii_render hfloat j)⟩
  rw [dump, hlong, if_neg Bool.false_ne_true, hrender]

theorem boundedControlPayload_of_render
    (hfloat : ∀ bits, isAscii (PythonText.floatRepr bits) = true) {fields : List (Str × Json)}
    {s : Str} (hpersisted : validatePersisted 9 (.obj fields) = .ok ())
    (hlong : (Json.obj fields).hasLongInt = false) (hrender : (Json.obj fields).render true = s)
    (hshort : s.length ≤ maxPersistedBytes) : boundedControlPayload fields = .ok () := by
  obtain ⟨hdump, hbytes⟩ := encoded_of_render hfloat hlong hrender
  have hlength : (s.map Fin.val).length ≤ maxPersistedBytes := by rwa [List.length_map]
  exact bind_eq_ok.2 ⟨(), hpersisted, bind_eq_ok.2 ⟨_, hdump, bind_eq_ok.2 ⟨_, hbytes,
    if_pos (decide_eq_true hlength)⟩⟩⟩

theorem contentHash_of_render (hfloat : ∀ bits, isAscii (PythonText.floatRepr bits) = true)
    {fields : List (Str × Json)} {s hash : Str} (hlong : (Json.obj fields).hasLongInt = false)
    (hrender : (Json.obj fields).render true = s)
    (hdigest : Sha256.hexdigest (s.map Fin.val) = hash) : contentHash (.obj fields) = .ok hash := by
  obtain ⟨hdump, hbytes⟩ := encoded_of_render hfloat hlong hrender
  rw [← hdigest]
  exact bind_eq_ok.2 ⟨_, hdump, bind_eq_ok.2 ⟨_, hbytes, rfl⟩⟩

/-- What `record_terminal_child` goes on to do once the hashes agree. -/
def TerminalChild.recorded (t : TerminalChild) (k : TerminalKeys) (entry : TicketEntry)
    (manifest : ExecutionManifest) : Except PyError OutcomeArgs := do
  let child ← requireSome (manifest.children.find? fun c => c.childOperationId = k.childId)
    "ticket_child_operation_not_in_manifest"
  let receipt ← outcomeReceipt k.childId k.state manifest.persistence t.receipt
  let reasonCode ← normalizeReason t.reasonCode
  let receiptHash ← receiptHashOf receipt
  let outcome : ChildOutcome :=
    { parentOperationId := k.parentId, parentManifestHash := k.manifestHash
      childOperationId := k.childId, childIndex := child.childIndex
      effectState := k.state.value, reasonCode, receiptHash }
  boundedControlPayload outcome.fields
  .ok { ticketId := entry.ticketId, requestId := entry.requestId, outcome, receipt
        expectationId := t.expectationId, receiptEntryId := t.receiptEntryId
        entryId := t.entryId, jobId := t.jobId }

variable {entry : TicketEntry} {m : ExecutionManifest} {hash : Str}

theorem outcome_of_manifest (hm : normalizeExecutionManifest entry.structuredPayload = .ok m)
    (hhash : contentHash (.obj m.fields) = .ok hash) (t : TerminalChild) (k : TerminalKeys) :
    t.outcome k (some entry) =
      (require (hash = k.manifestHash) (.valueError "ticket_parent_manifest_hash_conflict")).bind
        fun _ => t.recorded k entry m := by
  unfold TerminalChild.outcome
  dsimp only
  exact (bind_of_ok hm).trans (bind_of_ok hhash)

theorem expectedChildren_of_manifest
    (hm : normalizeExecutionManifest entry.structuredPayload = .ok m)
    (hhash : contentHash (.obj m.fields) = .ok hash) (rest : List TicketEntry)
    (expected : Dict Binding) : expectedChildren (entry :: rest) expected =
      (bindChildren m hash m.children expected).bind (expectedChildren rest) := by
  rw [expectedChildren]
  exact (bind_of_ok hm).trans (bind_of_ok hhash)

/-- The first reservation of a manifest stores its normal form under the key of its operation. -/
theorem reserve_stores {a : ReserveArgs} {now : Instant} {db db' : TicketDb}
    (hm : normalizeExecutionManifest a.manifest = .ok m)
    (hreserve : reserve a now db = .ok (entry, db'))
    (hfresh : db.entries.find? (manifestKey m.parentOperationId) = none) :
    entry.structuredPayload = .obj m.fields ∧
      db'.entries.find? (manifestKey m.parentOperationId) = some entry := by
  obtain ⟨m', hm', hreserve⟩ := bind_eq_ok.1 hreserve
  obtain rfl := Except.ok.inj (hm'.symm.trans hm)
  obtain ⟨hash, -, hreserve⟩ := bind_eq_ok.1 hreserve
  obtain ⟨hash', -, hreserve⟩ := bind_eq_ok.1 hreserve
  obtain ⟨-, -, hreserve⟩ := bind_eq_ok.1 hreserve
  obtain ⟨parentId, hparent, hreserve⟩ := bind_eq_ok.1 hreserve
  have hid : parentId = m'.parentOperationId := by
    have htext : textOr (lookup m'.fields "parent_operation_id") [] = .ok m'.parentOperationId := by
      show textOr (some (.str m'.parentOperationId)) [] = _
      by_cases hempty : m'.parentOperationId = []
      · rw [hempty]
        rfl
      · simp [textOr, truthy, hempty, pyStr]
    exact Except.ok.inj (hparent.symm.trans htext)
  subst hid
  split at hreserve
  · cases hreserve
  · obtain ⟨⟨e, db₁⟩, happend, hreserve⟩ := bind_eq_ok.1 hreserve
    obtain ⟨-, -, hreserve⟩ := bind_eq_ok.1 hreserve
    obtain ⟨rfl, rfl⟩ := Prod.mk.inj (Except.ok.inj hreserve)
    obtain ⟨entryHash, -, happend⟩ := bind_eq_ok.1 happend
    simp only [hfresh] at happend
    obtain ⟨-, -, happend⟩ := bind_eq_ok.1 happend
    split at happend
    · cases happend
    · next entries hinsert =>
      obtain ⟨rfl, rfl⟩ := Prod.mk.inj (Except.ok.inj happend)
      refine ⟨rfl, ?_⟩
      rw [Table.find?_insert? (Table.insertApart?_eq_some.1 hinsert).2]
      exact if_pos rfl

/-- An accepted manifest and what is stored of it are read as the manifest itself, and the hash of
the reservation is the one that its children's outcomes and the aggregate are checked against. -/
theorem accepted_manifest_reread {v : Json} {m : ExecutionManifest}
    (h : normalizeExecutionManifest v = .ok m) :
    normalizeExecutionManifest (.obj m.fields) = .ok m ∧
    ∃ stored hash, reload (.obj m.fields) = .ok stored ∧
      normalizeExecutionManifest stored = .ok m ∧ contentHash (.obj m.fields) = .ok hash ∧
      (∀ a now db entry db', a.manifest = v → reserve a now db = .ok (entry, db') →
        db.entries.find? (manifestKey m.parentOperationId) = none →
        entry.structuredPayload = .obj m.fields ∧
          db'.entries.find? (manifestKey m.parentOperationId) = some entry) ∧
      ∀ entry : TicketEntry, entry.structuredPayload ∈ [.obj m.fields, stored] →
        (∀ (t : TerminalChild) k, t.outcome k (some entry) =
          (require (hash = k.manifestHash)
            (.valueError "ticket_parent_manifest_hash_conflict")).bind
              fun _ => t.recorded k entry m) ∧
        ∀ rest expected, expectedChildren (entry :: rest) expected =
          (bindChildren m hash m.children expected).bind (expectedChildren rest) := by
  have hagain := normalizeExecutionManifest_reread rereading_id h
  have hstored := normalizeExecutionManifest_reread rereading_reread h
  obtain ⟨u, hbounded⟩ : ∃ u, boundedControlPayload m.fields = .ok u := by
    cases v with
    | obj raw =>
      obtain ⟨m', -, h⟩ := bind_eq_ok.1 h
      obtain ⟨u, hbounded, h⟩ := bind_eq_ok.1 h
      rw [← Except.ok.inj h]
      exact ⟨u, hbounded⟩
    | _ => cases h
  obtain ⟨⟨hash, hhash⟩, hshort⟩ := contentHash_of_bounded hbounded
  refine ⟨hagain, reread (.obj m.fields), hash, ?_, hstored, hhash, ?_, fun entry hentry => ?_⟩
  · rw [reload, hshort, if_neg Bool.false_ne_true]
  · rintro a now db entry db' rfl hreserve hfresh
    exact reserve_stores h hreserve hfresh
  · have hm : normalizeExecutionManifest entry.structuredPayload = .ok m := by
      simp only [List.mem_cons, List.not_mem_nil, or_false] at hentry
      rcases hentry with hentry | hentry <;> rw [hentry]
      · exact hagain
      · exact hstored
    exact ⟨fun t k => outcome_of_manifest hm hhash t k,
      fun rest expected => expectedChildren_of_manifest hm hhash rest expected⟩

omit [PythonText] in
/-- A manifest of one child, with blanks and capitals that the normal form has not. -/
def spacedManifest : Json :=
  .obj [("schema_version", .bool true), ("parent_operation_id", .str " op:1 "),
    ("authorization_binding_hash", .str (List.replicate 64 0x41)),
    ("effect_cardinality", .str " Single"), ("expected_child_count", .int 1),
    ("skill_id", .str "skill.email"), ("tool_id", .str "email.archive"),
    ("contract_version", .int 1), ("descriptor_hash", .str (List.replicate 64 0x62)),
    ("resource_version", .int 3), ("parent_arguments_hash", .str (List.replicate 64 0x63)),
    ("children", .arr [.obj [("target_hash", .str (List.replicate 64 0x64)),
      ("child_index", .int 0), ("child_operation_id", .str "op:1:0 "),
      ("arguments_hash", .str (List.replicate 64 0x44))]]),
    ("recovery_manifest_hash", .null), ("sensitivity", .str "Private"),
    ("persistence", .str "STANDARD")]

omit [PythonText] in
def spacedNormal : ExecutionManifest where
  parentOperationId := "op:1"
  authorizationBindingHash := List.replicate 64 0x61
  effectCardinality := .single
  skillId := "skill.email"
  toolId := "email.archive"
  contractVersion := 1
  descriptorHash := List.replicate 64 0x62
  resourceVersion := 3
  parentArgumentsHash := List.replicate 64 0x63
  children := [⟨"op:1:0", 0, List.replicate 64 0x64, List.replicate 64 0x64⟩]
  recoveryManifestHash := none
  sensitivity := .isPrivate
  persistence := .standard

omit [PythonText] in
theorem spacedManifest_accepted :
    @normalizeExecutionManifest asciiText spacedManifest = .ok spacedNormal := by
  have hchecks : (@validatePersisted asciiText 9 (.obj spacedNormal.fields) = .ok () ∧
      (Json.obj spacedNormal.fields).hasLongInt = false) ∧
        (@Json.render asciiText true (.obj spacedNormal.fields)).length ≤ maxPersistedBytes := by
    decide +kernel
  have hbounded : @boundedControlPayload asciiText spacedNormal.fields = .ok () :=
    @boundedControlPayload_of_render asciiText (fun _ => rfl) _ _ hchecks.1.1 hchecks.1.2 rfl
      hchecks.2
  have hread : ∃ fields, spacedManifest = .obj fields ∧
      @readManifest asciiText fields = .ok spacedNormal := ⟨_, rfl, by decide +kernel⟩
  obtain ⟨fields, hfields, hnormal⟩ := hread
  rw [hfields]
  exact bind_eq_ok.2 ⟨_, hnormal, bind_eq_ok.2 ⟨(), hbounded, rfl⟩⟩

omit [PythonText] in
theorem spacedManifest_reread :
    @normalizeExecutionManifest asciiText (.obj spacedNormal.fields) = .ok spacedNormal ∧
      ∃ stored hash, reload (.obj spacedNormal.fields) = .ok stored ∧
        @normalizeExecutionManifest asciiText stored = .ok spacedNormal ∧
        @contentHash asciiText (.obj spacedNormal.fields) = .ok hash := by
  obtain ⟨hagain, stored, hash, hreload, hstored, hhash, -⟩ :=
    @accepted_manifest_reread asciiText _ _ spacedManifest_accepted
  exact ⟨hagain, stored, hash, hreload, hstored, hhash⟩

end Hashes

end HardyAI.Tickets
