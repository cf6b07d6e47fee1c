import HardyAI.Skills.CanonicalForm
import HardyAI.Email.Operations
import HardyAI.Foundation.Trace

/-! The messages that an Email operation changes and the ones that its references denoted
when the call was prepared. -/

open Foundation Foundation.Json HardyAI.Skills

namespace HardyAI.Email

section References

/-- The references that canonical arguments carry. -/
def carriedRefs (arguments : List (Str × Json)) : List Str :=
  match lookup arguments "message_refs" with
  | some (.arr items) => items.filterMap fun item => match item with | .str s => some s | _ => none
  | _ => []

@[simp] theorem filterMap_str (refs : List Str) :
    (refs.map Json.str).filterMap (fun item => match item with | .str s => some s | _ => none) =
      refs := by
  induction refs with
  | nil => rfl
  | cons r refs ih => simp [ih]

theorem carriedRefs_eq {arguments : List (Str × Json)} {refs : List Str}
    (h : lookup arguments "message_refs" = some (texts refs)) : carriedRefs arguments = refs := by
  simp [carriedRefs, h, texts]

theorem isSpace_eq_false {c : CodePoint} (h : 0x30 ≤ c.val ∧ c.val ≤ 0x45) :
    isSpace c = false := by
  simp [isSpace]
  omega

theorem isDigitOf_range {low high : Char} {c : CodePoint} (h : isDigitOf low high c = true)
    (hlow : 0x30 ≤ (codePoint low).val) (hhigh : (codePoint high).val ≤ 0x39) :
    0x30 ≤ c.val ∧ c.val ≤ 0x45 := by
  simp only [isDigitOf, Bool.and_eq_true, decide_eq_true_eq] at h
  omega

/-- The characters of a reference are upper-case ASCII. -/
theorem range_of_isMessageRef {s : Str} (h : isMessageRef s = true) :
    s ≠ [] ∧ s.length ≤ 3 ∧ ∀ c ∈ s, 0x30 ≤ c.val ∧ c.val ≤ 0x45 := by
  have hletter {c : CodePoint} (hc : text "E" = [c]) : 0x30 ≤ c.val ∧ c.val ≤ 0x45 := by
    have heq : codePoint 'E' = c := (List.cons.inj hc).1
    subst heq
    decide
  match s, h with
  | [c, d], h =>
    simp only [isMessageRef, Bool.and_eq_true, decide_eq_true_eq] at h
    obtain ⟨hc, hd⟩ := h
    have hdigit := isDigitOf_range hd (by decide) (by decide)
    simp [hletter hc, hdigit]
  | [c, d, d'], h =>
    simp only [isMessageRef, Bool.and_eq_true, Bool.or_eq_true, decide_eq_true_eq] at h
    obtain ⟨hc, ⟨hd, hd'⟩ | hfifty⟩ := h
    · have hdigit := isDigitOf_range hd (by decide) (by decide)
      have hdigit' := isDigitOf_range hd' (by decide) (by decide)
      simp [hletter hc, hdigit, hdigit']
    · have hfive : codePoint '5' = d := (List.cons.inj hfifty).1
      have hzero : codePoint '0' = d' := (List.cons.inj (List.cons.inj hfifty).2).1
      subst hfive hzero
      refine ⟨by simp, by simp, ?_⟩
      intro x hx
      simp only [List.mem_cons, List.not_mem_nil, or_false] at hx
      rcases hx with rfl | rfl | rfl
      · exact hletter hc
      · decide
      · decide

theorem dropWhile_isSpace {s : Str} (h : ∀ c ∈ s, isSpace c = false) :
    s.dropWhile isSpace = s := by
  cases s with
  | nil => rfl
  | cons c s => rw [List.dropWhile_cons_of_neg (by simp [h c])]

theorem strip_eq_self {s : Str} (h : ∀ c ∈ s, isSpace c = false) : strip s = s := by
  rw [strip, dropWhile_isSpace h, dropWhile_isSpace (by simpa using h), List.reverse_reverse]

variable [PythonText]

theorem upper_eq_self {s : Str} (h : ∀ c ∈ s, c.val < 97) : PythonText.upper s = s := by
  have hascii : isAscii s = true := by
    simp only [isAscii, List.all_eq_true, decide_eq_true_eq]
    intro c hc
    have hlt := h c hc
    omega
  rw [PythonText.upper_ascii s hascii]
  conv_rhs => rw [← List.map_id s]
  refine List.map_congr_left fun c hc => ?_
  have hlt := h c hc
  simp only [asciiUpper, id]
  rw [if_neg (by omega)]

omit [PythonText] in
theorem strip_of_isMessageRef {s : Str} (h : isMessageRef s = true) : strip s = s :=
  strip_eq_self fun c hc => isSpace_eq_false ((range_of_isMessageRef h).2.2 c hc)

theorem upper_of_isMessageRef {s : Str} (h : isMessageRef s = true) : PythonText.upper s = s :=
  upper_eq_self fun c hc => by
    have hrange := (range_of_isMessageRef h).2.2 c hc
    omega

theorem textOr_str {s : Str} (h : s ≠ []) : textOr (some (.str s)) [] = .ok s := by
  simp [textOr, truthy, h, pyStr]

/-- What `_message_refs` returns. -/
structure WellFormedRefs (refs : List Str) : Prop where
  length_pos : 1 ≤ refs.length
  length_le : refs.length ≤ 50
  all : ∀ r ∈ refs, isMessageRef r = true
  nodup : refs.Nodup

omit [PythonText] in
theorem WellFormedRefs.perm {refs refs' : List Str} (h : WellFormedRefs refs)
    (hperm : refs'.Perm refs) : WellFormedRefs refs' where
  length_pos := hperm.length_eq ▸ h.length_pos
  length_le := hperm.length_eq ▸ h.length_le
  all r hr := h.all r (hperm.mem_iff.1 hr)
  nodup := hperm.nodup_iff.2 h.nodup

theorem messageRefs_wellFormed {value : Option Json} {refs : List Str}
    (h : messageRefs value = .ok refs) : WellFormedRefs refs := by
  simp only [messageRefs, bind_eq_ok, require_eq_ok, List.all_eq_true, decide_eq_true_eq,
    Except.ok.injEq] at h
  obtain ⟨items, hitems, refs', hmap, -, hall, -, hnodup, rfl⟩ := h
  have hlength := mapM_length hmap
  have hbounds : 1 ≤ items.length ∧ items.length ≤ 50 := by
    unfold boundedList at hitems
    split at hitems
    · split at hitems
      · next hlen =>
        obtain rfl := Except.ok.inj hitems
        exact hlen
      · simp at hitems
    · simp at hitems
  exact ⟨by omega, by omega, hall, hnodup⟩

/-- Canonical references are read back as they are. -/
theorem messageRefs_texts {refs : List Str} (h : WellFormedRefs refs) :
    messageRefs (some (texts refs)) = .ok refs := by
  have hitems : boundedList (some (texts refs)) 50 "email_message_refs_invalid" =
      .ok (refs.map .str) := by
    simp [boundedList, texts, h.length_pos, h.length_le]
  have hmap : (refs.map Json.str).mapM
      (fun item => (textOr (some item) []).map fun s => PythonText.upper (strip s)) = .ok refs := by
    refine mapM_map_eq_ok fun r hr => ?_
    have href := h.all r hr
    simp [textOr_str (range_of_isMessageRef href).1, Except.map, strip_of_isMessageRef href,
      upper_of_isMessageRef href]
  have hall : refs.all isMessageRef = true := List.all_eq_true.2 h.all
  simp [messageRefs, hitems, hmap, hall, h.nodup, require, bind, Except.bind]

end References

section Preparation

variable [PythonText]

theorem casefold_providerTool {toolId : Str} (h : toolId ∈ providerTools) :
    PythonText.casefold (strip toolId) = toolId := by
  simp only [providerTools, List.mem_cons, List.not_mem_nil, or_false] at h
  rcases h with rfl | rfl | rfl | rfl | rfl
  all_goals
    rw [PythonText.casefold_ascii _ (by decide)]
    decide

omit [PythonText] in
theorem ne_of_providerTool {toolId : Str} (h : toolId ∈ providerTools) :
    toolId ≠ text "email.get_operation" ∧ toolId ≠ text "email.set_review_state" ∧
      toolId ≠ text "email.correct_local_category" ∧ toolId ≠ text "email.move_to_spam" := by
  simp only [providerTools, List.mem_cons, List.not_mem_nil, or_false] at h
  rcases h with rfl | rfl | rfl | rfl | rfl <;> decide

/-- Canonical arguments carry well-formed references. -/
theorem canonicalize_refs {p : Permissions} {db : EmailDb} {now toolId : Str}
    {arguments context canonical : List (Str × Json)} (htool : toolId ∈ providerTools)
    (h : canonicalize p db now toolId arguments context = .ok canonical) :
    ∃ refs, WellFormedRefs refs ∧ lookup canonical "message_refs" = some (texts refs) := by
  simp only [canonicalize, casefold_providerTool htool, bind_eq_ok, require_eq_ok] at h
  obtain ⟨-, -, grant, -, -, -, h⟩ := h
  obtain ⟨hget, hreview, hcategory, hspam⟩ := ne_of_providerTool htool
  rw [if_neg hget, if_neg hreview, if_neg hcategory, if_neg hspam] at h
  simp only [bind_eq_ok] at h
  obtain ⟨refs, hrefs, h⟩ := h
  refine ⟨refs, messageRefs_wellFormed hrefs, ?_⟩
  split at h
  · simp only [bind_eq_ok, require_eq_ok, Except.ok.injEq] at h
    obtain ⟨-, -, -, -, labels, -, rfl⟩ := h
    rfl
  · split at h
    · simp only [bind_eq_ok, require_eq_ok, Except.ok.injEq] at h
      obtain ⟨-, -, state, -, rfl⟩ := h
      rfl
    · simp only [bind_eq_ok, require_eq_ok, Except.ok.injEq] at h
      obtain ⟨-, -, rfl⟩ := h
      rfl

theorem normalizeTargets_perm {refs targets : List Str} (h : WellFormedRefs refs)
    (hnormal : normalizeTargets (refs.map .str) = .ok targets) : targets.Perm refs := by
  have hmap : (refs.map Json.str).mapM (fun item => (textOr (some item) []).map strip) =
      .ok refs := by
    refine mapM_map_eq_ok fun r hr => ?_
    have href := h.all r hr
    simp [textOr_str (range_of_isMessageRef href).1, Except.map, strip_of_isMessageRef href]
  simp only [normalizeTargets, hmap, bind_eq_ok, require_eq_ok, Except.ok.injEq] at hnormal
  obtain ⟨refs', rfl, -, -, -, -, rfl⟩ := hnormal
  exact List.perm_insertionSort _ _

theorem sealEnvelope_refs {template e : ToolCallEnvelope} {arguments : List (Str × Json)}
    {refs : List Str} (hrefs : WellFormedRefs refs)
    (hcarried : lookup arguments "message_refs" = some (texts refs))
    (h : sealEnvelope template arguments = .ok e) :
    ∃ refs', refs'.Perm refs ∧ lookup e.arguments "message_refs" = some (texts refs') := by
  simp only [sealEnvelope, toolOperationId, bind_eq_ok, require_eq_ok, Except.ok.injEq] at h
  obtain ⟨identity, ⟨-, -, -, -, -, -, -, -, normalized, hnormalized, hash, -, id, -, rfl⟩, rfl⟩ := h
  simp only [normalizeIdentityArguments, bind_eq_ok] at hnormalized
  obtain ⟨frozen, hfrozen, hnormalized⟩ := hnormalized
  obtain rfl := freezeFields_eq_ok hfrozen
  split at hnormalized
  · rw [hcarried, texts] at hnormalized
    cases hlist : refs.map Json.str with
    | nil =>
      have hpos := hrefs.length_pos
      simp [List.map_eq_nil_iff.1 hlist] at hpos
    | cons item items =>
      rw [hlist] at hnormalized
      simp only [bind_eq_ok, Except.ok.injEq] at hnormalized
      obtain ⟨targets, htargets, rfl⟩ := hnormalized
      rw [← hlist] at htargets
      exact ⟨targets, normalizeTargets_perm hrefs htargets, lookup_setField ..⟩
  · obtain rfl := Except.ok.inj hnormalized
    exact ⟨refs, List.Perm.refl _, hcarried⟩

end Preparation

section Children

/-- A new child shares no unique column with a row. -/
def ReserveRequest.apart (r : ReserveRequest) (c : ChildRequest) (old : LabelOperation) : Prop :=
  old.childOperationId ≠ c.childOperationId ∧ (r.row c).clash old = false

theorem insertChild_eq_ok {r : ReserveRequest} {ids : List Str}
    {t t' : Table LabelOperation.childOperationId} {c : ChildRequest} :
    r.insertChild ids t c = .ok t' ↔ (1 ≤ c.childIndex ∧ c.childIndex ≤ 50) ∧
      c.gmailMessageId ∈ ids ∧ (∀ old ∈ t.rows, r.apart c old) ∧ t'.rows = t.rows ++ [r.row c] := by
  have hinsert : t.insertApart? (r.row c).clash (r.row c) = some t' ↔
      (∀ old ∈ t.rows, r.apart c old) ∧ t'.rows = t.rows ++ [r.row c] := by
    rw [Table.insertApart?_eq_some, Table.insert?_eq_some_iff]
    constructor
    · rintro ⟨hclash, hfresh, hrows⟩
      exact ⟨fun old hold => ⟨hfresh old hold, hclash old hold⟩, hrows⟩
    · rintro ⟨hapart, hrows⟩
      exact ⟨fun old hold => (hapart old hold).2, fun old hold => (hapart old hold).1, hrows⟩
  rw [← hinsert]
  simp only [ReserveRequest.insertChild, bind_eq_ok, require_eq_ok, Bool.and_eq_true,
    decide_eq_true_eq, List.contains_eq_mem]
  cases t.insertApart? (r.row c).clash (r.row c) with
  | none => simp
  | some inserted => simp

/-- The children are inserted where the constraints of the table allow it. -/
theorem foldlM_insertChild {r : ReserveRequest} {ids : List Str} (children : List ChildRequest)
    (t t' : Table LabelOperation.childOperationId) :
    children.foldlM (r.insertChild ids) t = .ok t' ↔
      (∀ c ∈ children, (1 ≤ c.childIndex ∧ c.childIndex ≤ 50) ∧ c.gmailMessageId ∈ ids ∧
        ∀ old ∈ t.rows, r.apart c old) ∧
      children.Pairwise (fun c c' => r.apart c' (r.row c)) ∧
      t'.rows = t.rows ++ children.map r.row := by
  induction children generalizing t with
  | nil =>
    simp only [List.foldlM_nil, Pure.pure, Except.pure, Except.ok.injEq, List.not_mem_nil,
      false_implies, implies_true, List.Pairwise.nil, List.map_nil, List.append_nil, true_and]
    exact ⟨fun h => h ▸ rfl, fun h => Table.ext h.symm⟩
  | cons c children ih =>
    simp only [List.foldlM_cons, bind_eq_ok, insertChild_eq_ok, ih, List.pairwise_cons,
      List.mem_cons, List.map_cons]
    constructor
    · rintro ⟨t₁, ⟨hindex, hstored, hapart, hrows⟩, hall, hpairs, hrows'⟩
      rw [hrows] at hall hrows'
      refine ⟨?_, ⟨?_, hpairs⟩, by simpa using hrows'⟩
      · rintro c' (rfl | hc')
        · exact ⟨hindex, hstored, hapart⟩
        · obtain ⟨hindex', hstored', hapart'⟩ := hall c' hc'
          exact ⟨hindex', hstored', fun old hold => hapart' old (List.mem_append_left _ hold)⟩
      · intro c' hc'
        exact (hall c' hc').2.2 _ (List.mem_append_right _ (List.mem_singleton_self _))
    · rintro ⟨hall, ⟨hfirst, hpairs⟩, hrows⟩
      obtain ⟨hindex, hstored, hapart⟩ := hall c (.inl rfl)
      obtain ⟨t₁, ht₁⟩ : ∃ t₁ : Table LabelOperation.childOperationId,
          t₁.rows = t.rows ++ [r.row c] := by
        refine ⟨⟨t.rows ++ [r.row c], ?_⟩, rfl⟩
        rw [List.map_append, List.map_singleton]
        refine List.nodup_append_comm.1 (List.nodup_cons.2 ⟨?_, t.unique⟩)
        intro hmem
        obtain ⟨old, hold, hkey⟩ := List.mem_map.1 hmem
        exact (hapart old hold).1 hkey
      refine ⟨t₁, ⟨hindex, hstored, hapart, ht₁⟩, ?_, hpairs, by simpa [ht₁] using hrows⟩
      intro c' hc'
      obtain ⟨hindex', hstored', hapart'⟩ := hall c' (.inr hc')
      refine ⟨hindex', hstored', ?_⟩
      rw [ht₁]
      intro old hold
      rcases List.mem_append.1 hold with hold | hnew
      · exact hapart' old hold
      · rw [List.mem_singleton.1 hnew]
        exact hfirst c' hc'

/-- What the constraints of the ledger demand of a reservation. -/
structure ReserveRequest.Fits (r : ReserveRequest) (db : EmailDb) : Prop where
  unrecorded : db.operations.find? r.operationId = none
  rows : ∀ c ∈ r.children, (1 ≤ c.childIndex ∧ c.childIndex ≤ 50) ∧
    c.gmailMessageId ∈ db.messageIds ∧ ∀ old ∈ db.labelOperations.rows, r.apart c old
  distinct : r.children.Pairwise fun c c' => r.apart c' (r.row c)

variable [PythonText] {db : EmailDb} {r : ReserveRequest}

theorem reserve_of_fits (htool : r.toolId ∈ providerTools)
    (hlength : 1 ≤ r.children.length ∧ r.children.length ≤ 50) {manifestJson : Str}
    (hdump : dump true r.recoveryManifest = .ok manifestJson) (h : r.Fits db) :
    ∃ db', reserveManagedLabelOperation r db = .ok ((.queued, false), db') ∧
      db'.labelOperations.rows = db.labelOperations.rows ++ r.children.map r.row := by
  have hunique : ((db.labelOperations.rows ++ r.children.map r.row).map
      LabelOperation.childOperationId).Nodup := by
    rw [List.map_append, List.map_map]
    refine List.nodup_append.2 ⟨db.labelOperations.unique, ?_, ?_⟩
    · exact List.pairwise_map.2 (h.distinct.imp fun hapart => hapart.1)
    · intro a ha b hb
      obtain ⟨old, hold, rfl⟩ := List.mem_map.1 ha
      obtain ⟨c, hc, rfl⟩ := List.mem_map.1 hb
      exact ((h.rows c hc).2.2 old hold).1
  have hchildren : r.children.foldlM (r.insertChild db.messageIds) db.labelOperations =
      .ok ⟨_, hunique⟩ := (foldlM_insertChild _ _ _).2 ⟨h.rows, h.distinct, rfl⟩
  have hparent (parent : ToolOperation) (hid : parent.operationId = r.operationId) :
      ∃ operations, db.operations.insert? parent = some operations := by
    cases hinsert : db.operations.insert? parent with
    | some operations => exact ⟨operations, rfl⟩
    | none =>
      obtain ⟨old, hold⟩ := Table.insert?_eq_none.1 hinsert
      rw [hid, h.unrecorded] at hold
      simp at hold
  obtain ⟨operations, hoperations⟩ := hparent
    { operationId := r.operationId, toolId := r.toolId, ownerUserId := r.ownerUserId
      discordChannelId := r.discordChannelId, argumentsHash := r.argumentsHash
      expectedChildCount := r.children.length, recoveryManifestJson := manifestJson
      recoveryManifestHash := r.recoveryManifestHash, status := .queued, createdAt := r.now } rfl
  refine ⟨{ db with operations, labelOperations := ⟨_, hunique⟩ }, ?_, rfl⟩
  have htool' : providerTools.contains r.toolId = true := by simpa using htool
  simp only [reserveManagedLabelOperation, htool', hlength, hdump, h.unrecorded, hoperations,
    hchildren, require, bind, Except.bind, decide_true, Bool.and_self, if_true]

/-- A request that does not fit adds no child. -/
theorem reserve_of_not_fits (h : ¬ r.Fits db) :
    ((reserveManagedLabelOperation r).commit db).labelOperations = db.labelOperations := by
  refine Transaction.commit_of_forall (P := fun db' : EmailDb => db'.labelOperations = db.labelOperations)
    rfl fun reply db' hok => ?_
  simp only [reserveManagedLabelOperation, bind_eq_ok] at hok
  obtain ⟨-, -, -, -, manifestJson, -, hok⟩ := hok
  split at hok
  · simp only [bind_eq_ok, Except.ok.injEq, Prod.mk.injEq] at hok
    obtain ⟨-, -, -, -, -, rfl⟩ := hok
    rfl
  · next hnew =>
    split at hok
    · simp at hok
    · simp only [bind_eq_ok, Except.ok.injEq, Prod.mk.injEq] at hok
      obtain ⟨children, hchildren, -, rfl⟩ := hok
      obtain ⟨hall, hpairs, -⟩ := (foldlM_insertChild _ _ _).1 hchildren
      exact absurd ⟨hnew, hall, hpairs⟩ h

end Children

section Plan

variable [PythonText]

theorem resolveMessages_length {db : EmailDb} {e : ToolCallEnvelope} {clock : Nat → Str}
    {index : Nat} {refs : List Str} {items : List ResolvedMessage}
    (h : resolveMessages db e clock index refs = some items) : items.length = refs.length := by
  induction refs generalizing index items with
  | nil =>
    obtain rfl : [] = items := by simpa [resolveMessages] using h
    rfl
  | cons ref refs ih =>
    simp only [resolveMessages, Option.bind_eq_bind, Option.bind_eq_some_iff,
      Option.some.injEq] at h
    obtain ⟨id, -, rest, hrest, rfl⟩ := h
    simp [ih hrest]

/-- The resolved messages are what the references denote, each at its own clock reading. -/
theorem mem_resolveMessages {db : EmailDb} {e : ToolCallEnvelope} {clock : Nat → Str}
    {index : Nat} {refs : List Str} {items : List ResolvedMessage}
    (h : resolveMessages db e clock index refs = some items) (m : Str) :
    m ∈ items.map ResolvedMessage.gmailMessageId ↔
      ∃ i ref, refs[i]? = some ref ∧ denotes db e (clock (index + i)) ref = some m := by
  induction refs generalizing index items with
  | nil =>
    obtain rfl : [] = items := by simpa [resolveMessages] using h
    simp
  | cons ref refs ih =>
    simp only [resolveMessages, Option.bind_eq_bind, Option.bind_eq_some_iff,
      Option.some.injEq] at h
    obtain ⟨id, hid, rest, hrest, rfl⟩ := h
    rw [List.map_cons, List.mem_cons, ih hrest]
    constructor
    · rintro (rfl | ⟨i, ref', hget, hdenotes⟩)
      · exact ⟨0, ref, rfl, hid⟩
      · refine ⟨i + 1, ref', hget, ?_⟩
        rwa [show index + (i + 1) = index + 1 + i by omega]
    · rintro ⟨i, ref', hget, hdenotes⟩
      cases i with
      | zero =>
        obtain rfl : ref = ref' := by simpa using hget
        rw [Nat.add_zero, hid] at hdenotes
        exact .inl (Option.some.inj hdenotes).symm
      | succ i =>
        refine .inr ⟨i, ref', by simpa using hget, ?_⟩
        rwa [show index + 1 + i = index + (i + 1) by omega]

theorem childRequests_targets {operationId : Str} {action : LabelAction} {labels : List Str}
    {index : Nat} {items : List ResolvedMessage} {children : List (ChildRequest × Json)}
    (h : childRequests operationId action labels index items = .ok children) :
    children.map (fun child => child.1.gmailMessageId) =
      items.map ResolvedMessage.gmailMessageId := by
  induction items generalizing index children with
  | nil =>
    obtain rfl := Except.ok.inj h
    rfl
  | cons item items ih =>
    simp only [childRequests, bind_eq_ok, Except.ok.injEq] at h
    obtain ⟨opaqueId, -, ⟨childId, childHash⟩, -, rest, hrest, rfl⟩ := h
    simp [ih hrest]

omit [PythonText] in
theorem not_long {n : Int} (h : n.natAbs < 100) : hasLongInt (.int n) = false := by
  have hbound : (100 : Nat) ≤ 10 ^ 4300 := by
    calc (100 : Nat) = 10 ^ 2 := rfl
      _ ≤ 10 ^ 4300 := Nat.pow_le_pow_right (by decide) (by decide)
  simp only [hasLongInt, decide_eq_false_iff_not, not_le]
  exact lt_of_lt_of_le h hbound

omit [PythonText] in
theorem items_not_long {items : List Json} (h : ∀ x ∈ items, hasLongInt x = false) :
    hasLongInt (.arr items) = false := by
  show hasLongIntItems items = false
  induction items with
  | nil => rfl
  | cons x items ih =>
    show (hasLongInt x || hasLongIntItems items) = false
    rw [h x List.mem_cons_self, Bool.false_or]
    exact ih fun y hy => h y (List.mem_cons_of_mem _ hy)

omit [PythonText] in
theorem fields_not_long {fields : List (Str × Json)} (h : ∀ p ∈ fields, hasLongInt p.2 = false) :
    hasLongInt (.obj fields) = false := by
  show hasLongIntFields fields = false
  induction fields with
  | nil => rfl
  | cons p fields ih =>
    show (hasLongInt p.2 || hasLongIntFields fields) = false
    rw [h p List.mem_cons_self, Bool.false_or]
    exact ih fun q hq => h q (List.mem_cons_of_mem _ hq)

omit [PythonText] in
theorem texts_not_long (labels : List Str) : hasLongInt (texts labels) = false := by
  refine items_not_long fun x hx => ?_
  obtain ⟨label, -, rfl⟩ := List.mem_map.1 hx
  rfl

/-- No entry of the manifest holds an integer that could not be written. -/
theorem childRequests_not_long {operationId : Str} {action : LabelAction} {labels : List Str}
    {index : Nat} {items : List ResolvedMessage} {children : List (ChildRequest × Json)}
    (hindex : index + items.length ≤ 100)
    (h : childRequests operationId action labels index items = .ok children) :
    ∀ x ∈ children.map Prod.snd, hasLongInt x = false := by
  induction items generalizing index children with
  | nil =>
    obtain rfl := Except.ok.inj h
    simp
  | cons item items ih =>
    simp only [childRequests, bind_eq_ok, Except.ok.injEq] at h
    obtain ⟨opaqueId, -, ⟨childId, childHash⟩, -, rest, hrest, rfl⟩ := h
    have hlength : index + (items.length + 1) ≤ 100 := hindex
    have hnumber : hasLongInt (.int index) = false := not_long (by simp; omega)
    have hrows := ih (by omega) hrest
    intro x hx
    rcases List.mem_cons.1 hx with rfl | hx
    · refine fields_not_long fun p hp => ?_
      simp only [List.mem_cons, List.not_mem_nil, or_false] at hp
      rcases hp with rfl | rfl | rfl | rfl | rfl | rfl
      · rfl
      · exact hnumber
      · rfl
      · rfl
      · exact texts_not_long labels
      · rfl
    · exact hrows x hx

/-- What a planned request asks for. -/
structure Planned (db : EmailDb) (clock : Nat → Str) (e : ToolCallEnvelope)
    (request : ReserveRequest) : Prop where
  refs : ∃ refs, messageRefs (lookup e.arguments "message_refs") = .ok refs ∧
    request.children.length = refs.length ∧
    ∀ m, m ∈ request.children.map ChildRequest.gmailMessageId ↔
      ∃ i ref, refs[i]? = some ref ∧ denotes db e (clock i) ref = some m
  toolId : request.toolId = e.toolId
  dumped : ∃ manifestJson, dump true request.recoveryManifest = .ok manifestJson

omit [PythonText] in
theorem allowedAttempts_lt (maxAttempts : Int) : (allowedAttempts maxAttempts).natAbs < 100 := by
  unfold allowedAttempts
  omega

theorem reserveRequest_spec {maxAttempts : Int} {e : ToolCallEnvelope} {action : LabelAction}
    {labels : List Str} {items : List ResolvedMessage} {now : Str} {request : ReserveRequest}
    (hlength : items.length ≤ 50)
    (h : reserveRequest maxAttempts e action labels items now = .ok request) :
    request.toolId = e.toolId ∧
      (request.children.map ChildRequest.gmailMessageId).Perm
        (items.map ResolvedMessage.gmailMessageId) ∧
      ∃ manifestJson, dump true request.recoveryManifest = .ok manifestJson := by
  simp only [reserveRequest, bind_eq_ok, Except.ok.injEq] at h
  obtain ⟨children, hchildren, hash, -, rfl⟩ := h
  have hsorted : (items.insertionSort fun a b => a.gmailMessageId ≤ b.gmailMessageId).Perm items :=
    List.perm_insertionSort _ _
  have htargets := childRequests_targets hchildren
  have hrows := childRequests_not_long (by rw [hsorted.length_eq]; omega) hchildren
  refine ⟨rfl, ?_, ?_⟩
  · rw [List.map_map]
    exact htargets ▸ hsorted.map ResolvedMessage.gmailMessageId
  · have hmanifest : hasLongInt (.obj [("version", .int 1), ("action", .str action.value),
        ("max_attempts", .int (allowedAttempts maxAttempts)),
        ("children", .arr (children.map Prod.snd))]) = false := by
      refine fields_not_long fun p hp => ?_
      simp only [List.mem_cons, List.not_mem_nil, or_false] at hp
      rcases hp with rfl | rfl | rfl | rfl
      · exact not_long (by decide)
      · rfl
      · exact not_long (allowedAttempts_lt maxAttempts)
      · exact items_not_long hrows
    exact ⟨_, by rw [dump, hmanifest, if_neg Bool.false_ne_true]⟩

theorem planned_of_plan {p : Permissions} {maxAttempts : Int} {clock : Nat → Str}
    {e : ToolCallEnvelope} {db : EmailDb} {request : ReserveRequest}
    (h : planOperation p maxAttempts clock e db = .ok (.inr request)) :
    Planned db clock e request := by
  simp only [planOperation, bind_eq_ok] at h
  obtain ⟨refs, hrefs, ⟨action, labels⟩, -, choice, -, h⟩ := h
  cases choice with
  | inl reply => simp at h
  | inr labels =>
    cases hitems : resolveMessages db e clock 0 refs with
    | none => simp [hitems] at h
    | some items =>
      simp only [hitems] at h
      split at h
      · obtain ⟨request', hrequest, hsame⟩ := map_eq_ok.1 h
        obtain rfl := Sum.inr.inj hsame
        have hcount := resolveMessages_length hitems
        have hbound := (messageRefs_wellFormed hrefs).length_le
        obtain ⟨htool, hperm, hdump⟩ := reserveRequest_spec (by omega) hrequest
        refine ⟨⟨refs, hrefs, ?_, fun m => ?_⟩, htool, hdump⟩
        · have hsize := hperm.length_eq
          rw [List.length_map, List.length_map] at hsize
          omega
        · rw [hperm.mem_iff, mem_resolveMessages hitems]
          simp only [Nat.zero_add]
      · simp at h

end Plan

section Execution

variable [PythonText] {p : Permissions} {maxAttempts : Int} {clock : Nat → Str}
  {other : Except PyError (List (Str × Json))} {e : ToolCallEnvelope} {db : EmailDb}

/-- An execution gets as far as queueing its label operations. -/
structure Reservable (p : Permissions) (maxAttempts : Int) (clock : Nat → Str)
    (e : ToolCallEnvelope) (db : EmailDb) : Prop where
  skill : e.skillId = text "skill.email.agent"
  granted : ∃ grant, envelopeGrant p e = .ok (some grant)
  ready : labelTools.contains e.toolId = true → p.additiveLabelWritesReady = true
  planned : ∃ request, planOperation p maxAttempts clock e db = .ok (.inr request) ∧
    request.Fits db

/-- The label operations that a call has added. -/
def added (db db' : EmailDb) : List LabelOperation :=
  db'.labelOperations.rows.drop db.labelOperations.rows.length

theorem execute_eq (htool : e.toolId ∈ providerTools) (h : Reservable p maxAttempts clock e db) :
    execute p maxAttempts clock other e db = queueProviderOperation p maxAttempts clock e db := by
  obtain ⟨grant, hgrant⟩ := h.granted
  have hknown : operationTools.contains e.toolId = true := by
    simpa [operationTools] using .inl htool
  have hprovider : providerTools.contains e.toolId = true := by simpa using htool
  have hready : (labelTools.contains e.toolId && !p.additiveLabelWritesReady) = false := by
    cases hlabel : labelTools.contains e.toolId with
    | false => rfl
    | true => simp [h.ready hlabel]
  simp only [execute, h.skill, hknown, hprovider, hready, hgrant, bind, Except.bind, ne_eq,
    not_true_eq_false, if_false, Bool.not_true, Bool.false_eq_true]

/-- What an execution adds where it reserves. -/
theorem added_of_reservable (htool : e.toolId ∈ providerTools)
    (h : Reservable p maxAttempts clock e db) :
    ∃ refs, messageRefs (lookup e.arguments "message_refs") = .ok refs ∧
      added db ((execute p maxAttempts clock other e).commit db) ≠ [] ∧
      ∀ m, m ∈ (added db ((execute p maxAttempts clock other e).commit db)).map
          LabelOperation.gmailMessageId ↔
        ∃ i ref, refs[i]? = some ref ∧ denotes db e (clock i) ref = some m := by
  obtain ⟨request, hplan, hfits⟩ := h.planned
  obtain ⟨⟨refs, hrefs, hlength, htargets⟩, htool', manifestJson, hdump⟩ := planned_of_plan hplan
  have hbounds := messageRefs_wellFormed hrefs
  have hchildren : 1 ≤ request.children.length ∧ request.children.length ≤ 50 :=
    ⟨hlength ▸ hbounds.length_pos, hlength ▸ hbounds.length_le⟩
  obtain ⟨db', hreserve, hrows⟩ := reserve_of_fits (htool' ▸ htool) hchildren hdump hfits
  have hcommit : (execute p maxAttempts clock other e).commit db = db' := by
    refine Transaction.commit_of_ok (a := queued e.operationId request.children.length
      (.queued, false)) ?_
    rw [execute_eq htool h]
    simp only [queueProviderOperation, hplan, bind, Except.bind,
      Transaction.reply, hreserve, Except.map, replyOfReservation,
      Transaction.commit_of_ok hreserve]
  have hadded : added db ((execute p maxAttempts clock other e).commit db) =
      request.children.map request.row := by
    rw [hcommit, added, hrows, List.drop_left]
  refine ⟨refs, hrefs, ?_, fun m => ?_⟩
  · rw [hadded]
    intro hnil
    have hpos := hchildren.1
    simp [List.map_eq_nil_iff.1 hnil] at hpos
  · rw [hadded, List.map_map]
    exact htargets m

theorem queue_of_not_fits {reply : List (Str × Json)} {db' : EmailDb}
    (h : ∀ request, planOperation p maxAttempts clock e db = .ok (.inr request) →
      ¬ request.Fits db)
    (hok : queueProviderOperation p maxAttempts clock e db = .ok (reply, db')) :
    db'.labelOperations = db.labelOperations := by
  simp only [queueProviderOperation, bind_eq_ok] at hok
  obtain ⟨plan, hplan, hok⟩ := hok
  cases plan with
  | inl reply' =>
    obtain ⟨-, rfl⟩ := Prod.mk.inj (Except.ok.inj hok)
    rfl
  | inr request =>
    simp only [bind_eq_ok, Except.ok.injEq, Prod.mk.injEq] at hok
    obtain ⟨-, -, -, rfl⟩ := hok
    exact reserve_of_not_fits (h request hplan)

/-- Otherwise an execution adds nothing. -/
theorem added_of_not_reservable (htool : e.toolId ∈ providerTools)
    (h : ¬ Reservable p maxAttempts clock e db) :
    added db ((execute p maxAttempts clock other e).commit db) = [] := by
  have hsame : ((execute p maxAttempts clock other e).commit db).labelOperations =
      db.labelOperations := by
    refine Transaction.commit_of_forall (P := fun db' : EmailDb =>
      db'.labelOperations = db.labelOperations) rfl fun reply db' hok => ?_
    unfold execute at hok
    by_cases hskill : e.skillId = text "skill.email.agent"
    · have hknown : operationTools.contains e.toolId = true := by
        simpa [operationTools] using .inl htool
      have hprovider : providerTools.contains e.toolId = true := by simpa using htool
      rw [if_neg (by simpa using hskill), hknown, Bool.not_true, if_neg Bool.false_ne_true,
        bind_eq_ok] at hok
      obtain ⟨grant?, hgrant, hok⟩ := hok
      cases grant? with
      | none =>
        obtain ⟨-, rfl⟩ := Prod.mk.inj (Except.ok.inj hok)
        rfl
      | some grant =>
        simp only [hprovider, Bool.not_true, Bool.false_eq_true, if_false] at hok
        split at hok
        · obtain ⟨-, rfl⟩ := Prod.mk.inj (Except.ok.inj hok)
          rfl
        · next hready =>
          refine queue_of_not_fits (fun request hplan hfits => h ?_) hok
          refine ⟨hskill, ⟨grant, hgrant⟩, fun hlabel => ?_, request, hplan, hfits⟩
          rw [hlabel, Bool.true_and, Bool.not_eq_true', Bool.not_eq_false] at hready
          exact hready
    · rw [if_pos hskill] at hok
      obtain ⟨-, rfl⟩ := Prod.mk.inj (Except.ok.inj hok)
      rfl
  rw [added, hsame, List.drop_length]

end Execution

section Requests

/-- What happens to the store between the preparation of a call and its execution. -/
inductive Event
  /-- A read or list request shows messages, or keeps the state of a cursor. -/
  | shown (request : ReferenceSetRequest)
  /-- Another tool call is executed. -/
  | executed (p : Permissions) (maxAttempts : Int) (clock : Nat → Str)
      (other : Except PyError (List (Str × Json))) (e : ToolCallEnvelope)
  /-- The mailbox sync stores a message. -/
  | stored (gmailMessageId : Str)

variable [PythonText]

def Event.step (db : EmailDb) : Event → EmailDb
  | .shown request => (createReferenceSet request).commit db
  | .executed p maxAttempts clock other e => (execute p maxAttempts clock other e).commit db
  | .stored gmailMessageId => { db with messageIds := db.messageIds ++ [gmailMessageId] }

/-- The messages that the references of `arguments` denote at `now`. -/
def Denoted (db : EmailDb) (e : ToolCallEnvelope) (now : Str) (arguments : List (Str × Json))
    (m : Str) : Prop :=
  ∃ ref ∈ carriedRefs arguments, denotes db e now ref = some m

/-- The messages that the references of an envelope denote when an execution looks them up. -/
def DenotedAtExecution (db : EmailDb) (e : ToolCallEnvelope) (clock : Nat → Str) (m : Str) : Prop :=
  ∃ i ref, (carriedRefs e.arguments)[i]? = some ref ∧ denotes db e (clock i) ref = some m

/-- The label operations of an execution are on the messages that the call was prepared for,
or there are none. -/
def OnTarget (prepared : Str → Prop) (children : List LabelOperation) : Prop :=
  children = [] ∨ ∀ m, m ∈ children.map LabelOperation.gmailMessageId ↔ prepared m

theorem queued_targets (p : Permissions) (maxAttempts : Int) (clock : Nat → Str)
    (other : Except PyError (List (Str × Json))) (template e : ToolCallEnvelope)
    (db : EmailDb) (now : Str) (arguments context canonical : List (Str × Json))
    (between : List Event) (htool : e.toolId ∈ providerTools)
    (hcanonical : canonicalize p db now e.toolId arguments context = .ok canonical)
    (hsealed : sealEnvelope template canonical = .ok e) :
    OnTarget (Denoted db e now canonical)
        (added (Trace.run Event.step db between)
          ((execute p maxAttempts clock other e).commit (Trace.run Event.step db between))) ↔
      (Reservable p maxAttempts clock e (Trace.run Event.step db between) →
        ∀ m, DenotedAtExecution (Trace.run Event.step db between) e clock m ↔
          Denoted db e now canonical m) := by
  obtain ⟨prepared, hprepared, hcarried⟩ := canonicalize_refs htool hcanonical
  obtain ⟨refs, hperm, hlookup⟩ := sealEnvelope_refs hprepared hcarried hsealed
  have hrefs : messageRefs (lookup e.arguments "message_refs") = .ok refs := by
    rw [hlookup]
    exact messageRefs_texts (hprepared.perm hperm)
  generalize hdb : Trace.run Event.step db between = db₁
  by_cases hreservable : Reservable p maxAttempts clock e db₁
  · obtain ⟨refs', hrefs', hsome, htargets⟩ : ∃ refs',
        messageRefs (lookup e.arguments "message_refs") = .ok refs' ∧
        added db₁ ((execute p maxAttempts clock other e).commit db₁) ≠ [] ∧
        ∀ m, m ∈ (added db₁ ((execute p maxAttempts clock other e).commit db₁)).map
            LabelOperation.gmailMessageId ↔
          ∃ i ref, refs'[i]? = some ref ∧ denotes db₁ e (clock i) ref = some m :=
      added_of_reservable htool hreservable
    obtain rfl : refs = refs' := Except.ok.inj (hrefs.symm.trans hrefs')
    have hdenoted (m : Str) : DenotedAtExecution db₁ e clock m ↔
        m ∈ (added db₁ ((execute p maxAttempts clock other e).commit db₁)).map
          LabelOperation.gmailMessageId := by
      rw [htargets m, DenotedAtExecution, carriedRefs_eq hlookup]
    constructor
    · rintro (hnil | hsame) -
      · exact absurd hnil hsome
      · intro m
        rw [hdenoted m]
        exact hsame m
    · intro hsame
      refine .inr fun m => ?_
      rw [← hdenoted m]
      exact hsame hreservable m
  · have hnil : added db₁ ((execute p maxAttempts clock other e).commit db₁) = [] :=
      added_of_not_reservable htool hreservable
    exact ⟨fun _ h => absurd h hreservable, fun _ => .inl hnil⟩

end Requests

section Samples

def samplePermissions : Permissions where
  version := 1
  categoryKeys := []
  accessGrants := [⟨"ann", "7", none, ["jarvis"], ["shared"], true⟩]
  managedLabels := []

def sampleContext : List (Str × Json) :=
  [("source_interface", .str "discord"), ("identity_bound", .bool true),
    ("requested_by_user_id", .str "ann"), ("discord_channel_id", .str "7")]

def archiveTemplate : ToolCallEnvelope where
  rootRequestId := "request-1"
  operationId := []
  callOrdinal := 1
  sessionId := "session-1"
  principalKind := "user"
  principalSubject := "ann"
  externalUserId := "ann"
  userId := "ann"
  agentId := "jarvis"
  sourceInterface := "discord"
  channelScope := "7"
  skillId := "skill.email.agent"
  toolId := "email.archive_messages"
  contractVersion := 1
  authorizationSnapshotRef := "authz-1"
  argumentsHash := []
  arguments := []
  descriptorHash := []
  resourceVersion := "1"

def archiveArguments : List (Str × Json) := [("message_refs", texts ["E1"])]

def archiveCall : ToolCallEnvelope := { archiveTemplate with
  operationId := "toolop_v1_048c93dac540daea284cf210caeae0b70b75e6b36c817f132f30c7691b0f8a57"
  argumentsHash := "c30d0c2ed39a812677306b16c1593c5041cc2aac7a66ea994cf4e74a54d6c5c7"
  arguments := archiveArguments }

/-- The messages that a request of the user shows, in a channel. -/
def shownIn (channel id createdAt : String) (messageIds : List Str) : ReferenceSetRequest where
  referenceSetId := id
  userId := "ann"
  discordChannelId := channel
  queryText := "unread"
  messageIds := messageIds
  threadIds := []
  focusedMessageId := none
  focusedThreadId := none
  createdAt := createdAt
  expiresAt := "2026-01-02T08:00:00Z"

def shownDb : EmailDb :=
  (createReferenceSet (shownIn "7" "set-1" "2026-01-01T08:00:00Z" ["m1", "m2"])).commit
    { (∅ : EmailDb) with messageIds := ["m1", "m2"] }

/-- The messages are listed again, the other one first. -/
def rereadRun : List Event := [.shown (shownIn "7" "set-2" "2026-01-01T08:02:00Z" ["m2", "m1"])]

def elsewhereRun : List Event :=
  [.shown (shownIn "8" "set-2" "2026-01-01T08:02:00Z" ["m2", "m1"])]

def archiveClock : Nat → Str := fun _ => "2026-01-01T08:05:00Z"

/-- The call as it is prepared, and what its reference denotes then and in the other channel's
run. -/
theorem archiveCall_checked :
    (@canonicalize asciiText samplePermissions shownDb "2026-01-01T08:01:00Z" archiveCall.toolId
        archiveArguments sampleContext = .ok archiveArguments ∧
      @sealEnvelope asciiText archiveTemplate archiveArguments = .ok archiveCall ∧
      carriedRefs archiveArguments = [text "E1"]) ∧
    @denotes asciiText shownDb archiveCall "2026-01-01T08:01:00Z" (text "E1") = some (text "m1") ∧
    @denotes asciiText (Trace.run (@Event.step asciiText) shownDb elsewhereRun)
      archiveCall "2026-01-01T08:05:00Z" (text "E1") = some (text "m1") := by
  decide +kernel

/-- The call was prepared to archive one message and archives the other. -/
theorem other_message_rereadRun :
    @canonicalize asciiText samplePermissions shownDb "2026-01-01T08:01:00Z" archiveCall.toolId
        archiveArguments sampleContext = .ok archiveArguments ∧
      @sealEnvelope asciiText archiveTemplate archiveArguments = .ok archiveCall ∧
      ¬ OnTarget (@Denoted asciiText shownDb archiveCall "2026-01-01T08:01:00Z" archiveArguments)
        (added (Trace.run (@Event.step asciiText) shownDb rereadRun)
          ((@execute asciiText samplePermissions 4 archiveClock (.ok []) archiveCall).commit
            (Trace.run (@Event.step asciiText) shownDb rereadRun))) := by
  have hadded : (added (Trace.run (@Event.step asciiText) shownDb rereadRun)
      ((@execute asciiText samplePermissions 4 archiveClock (.ok []) archiveCall).commit
        (Trace.run (@Event.step asciiText) shownDb rereadRun))).map
          LabelOperation.gmailMessageId = [text "m2"] := by decide +kernel
  obtain ⟨⟨hprepared, hsealed, hcarried⟩, hdenoted, -⟩ := archiveCall_checked
  refine ⟨hprepared, hsealed, ?_⟩
  rintro (hnil | hsame)
  · simp [hnil] at hadded
  · have hother := (hsame (text "m2")).1 (by simp [hadded])
    obtain ⟨ref, href, hdenotes⟩ := hother
    obtain rfl : ref = text "E1" := by simpa [hcarried] using href
    exact absurd (hdenoted.symm.trans hdenotes) (by decide)

theorem queued_targets_elsewhereRun :
    OnTarget (@Denoted asciiText shownDb archiveCall "2026-01-01T08:01:00Z" archiveArguments)
      (added (Trace.run (@Event.step asciiText) shownDb elsewhereRun)
        ((@execute asciiText samplePermissions 4 archiveClock (.ok []) archiveCall).commit
          (Trace.run (@Event.step asciiText) shownDb elsewhereRun))) := by
  obtain ⟨⟨hprepared, hsealed, hcarried⟩, hbefore, hafter⟩ := archiveCall_checked
  refine (@queued_targets asciiText samplePermissions 4 archiveClock (.ok []) archiveTemplate
    archiveCall shownDb "2026-01-01T08:01:00Z" archiveArguments sampleContext archiveArguments
    elsewhereRun (by decide) hprepared hsealed).2 fun _ m => ?_
  have hrefs : carriedRefs archiveCall.arguments = [text "E1"] := hcarried
  simp only [DenotedAtExecution, Denoted, hrefs, hcarried]
  constructor
  · rintro ⟨i, ref, hget, hdenotes⟩
    obtain rfl : ref = text "E1" := List.mem_singleton.1 (List.mem_of_getElem? hget)
    exact ⟨_, List.mem_singleton_self _, hbefore.trans (hafter.symm.trans hdenotes)⟩
  · rintro ⟨ref, href, hdenotes⟩
    obtain rfl : ref = text "E1" := List.mem_singleton.1 href
    exact ⟨0, _, rfl, hafter.trans (hbefore.symm.trans hdenotes)⟩

end Samples

end HardyAI.Email
