import HardyAI.Documents.ActiveRuns

/-! A document whose active version was found restricted stays hidden, as long as it is not
rediscovered unchanged and no later label of its active version is a lower one. -/

open Foundation Foundation.Json Foundation.Trace

namespace HardyAI.Documents

section Protections

/-- What was found about a version of a document. -/
structure Protection where
  documentId : Str
  sourceVersionId : Str
  sensitivity : Sensitivity
  deriving DecidableEq

def Protection.concerns (p : Protection) (d : DocumentRow) : Prop :=
  p.documentId = d.documentId ∧ d.activeSourceVersionId = some p.sourceVersionId

/-- The document is hidden and at least as sensitive as was found. -/
def DocumentRow.Shielded (d : DocumentRow) (p : Protection) : Prop :=
  d.searchVisible = false ∧ p.sensitivity.rank ≤ d.sensitivity.rank

/-- All the documents of a table are shielded as was found of their active versions. -/
def Shields (documents : Table DocumentRow.documentId) (found : List Protection) : Prop :=
  ∀ d ∈ documents.rows, ∀ p ∈ found, p.concerns d → d.Shielded p

/-- A store with what has been found so far. -/
structure Ledger where
  db : DocumentDb
  found : List Protection

variable [PythonText] [FieldText]

/-- What a call that goes through finds: a protected document at the version that is active,
or a restricted label of a version. -/
@[grind =]
def Call.finds (db : DocumentDb) : Call → Option Protection
  | .markProtectedPending r =>
    match (Documents.markProtectedPending r).reply db with
    | .error _ => none
    | .ok d => d.activeSourceVersionId.map fun v => ⟨r.documentId, v, r.target⟩
  | .appendClassification r =>
    match (Documents.appendClassification r).reply db with
    | .error _ => none
    | .ok _ =>
      if r.selectedSensitivity.restricted && (db.versions.find? r.sourceVersionId).isSome then
        some ⟨r.documentId, r.sourceVersionId, r.selectedSensitivity⟩
      else none
  | _ => none

def Ledger.step (l : Ledger) (c : Call) : Ledger :=
  ⟨c.commit l.db, l.found ++ (c.finds l.db).toList⟩

def Ledger.Shielded (l : Ledger) : Prop := Shields l.db.documents l.found

/-- What keeps the documents shielded: no restricted original is rediscovered as it was, no
label or protection of the active version is below what was found, and a version that was
found restricted is selected for a document that is shielded so. -/
def Call.KeepsShield (l : Ledger) : Call → Prop
  | .reconcileDiscoveredOrigin existing r =>
    ∀ x, (Documents.reconcileDiscoveredOrigin existing r).reply l.db = .ok x →
      ∀ e, existing = some e → e.sha256 = r.sha256 →
        ∀ d, l.db.documents.find? e.documentId = some d → ∀ p ∈ l.found, ¬p.concerns d
  | .appendClassification r => ∀ x, (Documents.appendClassification r).reply l.db = .ok x →
    ∀ d, l.db.documents.find? r.documentId = some d →
      d.activeSourceVersionId = some r.sourceVersionId →
        ∀ p ∈ l.found, p.concerns d → p.sensitivity.rank ≤ r.selectedSensitivity.rank
  | .markProtectedPending r => ∀ x, (Documents.markProtectedPending r).reply l.db = .ok x →
    ∀ d, l.db.documents.find? r.documentId = some d →
      ∀ p ∈ l.found, p.concerns d → p.sensitivity.rank ≤ r.target.rank
  | .markReady r => ∀ x, (Documents.markReady r).reply l.db = .ok x →
    ∀ d, l.db.documents.find? r.documentId = some d → ∀ v, r.version? l.db = some v →
      ∀ p ∈ l.found, p.documentId = d.documentId → p.sourceVersionId = v.sourceVersionId →
        d.Shielded p
  | _ => True

end Protections

section Anchors

variable {db db' : DocumentDb}

/-- What is found is found of versions that exist, and the active versions exist. -/
structure Ledger.Anchored (l : Ledger) : Prop where
  found : ∀ p ∈ l.found, ∃ v, l.db.versions.find? p.sourceVersionId = some v
  restricted : ∀ p ∈ l.found, p.sensitivity.restricted = true
  active : ∀ d ∈ l.db.documents.rows, ∀ id, d.activeSourceVersionId = some id →
    ∃ v, l.db.versions.find? id = some v

/-- A row after a call is at the version of the row before, or at a known one. -/
def ActiveKnown (db db' : DocumentDb) : Prop :=
  ∀ d' ∈ db'.documents.rows,
    (∃ d ∈ db.documents.rows, d'.activeSourceVersionId = d.activeSourceVersionId) ∨
      ∀ id, d'.activeSourceVersionId = some id → ∃ v, db'.versions.find? id = some v

theorem activeKnown_refl (db : DocumentDb) : ActiveKnown db db := fun d hd => .inl ⟨d, hd, rfl⟩

theorem activeKnown_commit {α : Type} {t : Transaction DocumentDb α}
    (h : ∀ a s', t db = .ok (a, s') → ActiveKnown db s') : ActiveKnown db (t.commit db) :=
  Transaction.commit_of_forall (activeKnown_refl db) h

/-- Updates that leave the version alone. -/
theorem activeKnown_update {g : DocumentRow → Bool} {f : Table.Assignment DocumentRow.documentId}
    (hdocuments : db'.documents = db.documents.update g f)
    (hf : ∀ d, (f.apply d).activeSourceVersionId = d.activeSourceVersionId) :
    ActiveKnown db db' := by
  intro d' hd'
  rw [hdocuments] at hd'
  obtain ⟨d, hd, rfl⟩ := Table.mem_update.1 hd'
  refine .inl ⟨d, hd, ?_⟩
  split
  · exact hf d
  · rfl

/-- Updates that select a known version. -/
theorem activeKnown_select {g : DocumentRow → Bool} {f : Table.Assignment DocumentRow.documentId}
    {v : SourceVersion} (hdocuments : db'.documents = db.documents.update g f)
    (hf : ∀ d, (f.apply d).activeSourceVersionId = some v.sourceVersionId)
    (hv : db'.versions.find? v.sourceVersionId = some v) : ActiveKnown db db' := by
  intro d' hd'
  rw [hdocuments] at hd'
  obtain ⟨d, hd, rfl⟩ := Table.mem_update.1 hd'
  split
  · refine .inr fun id hid => ⟨v, ?_⟩
    rw [hf] at hid
    rwa [← Option.some.inj hid]
  · exact .inl ⟨d, hd, rfl⟩

theorem activeKnown_insert {d : DocumentRow} (hins : db.documents.insert? d = some db'.documents)
    (hd : ∀ id, d.activeSourceVersionId = some id → ∃ v, db'.versions.find? id = some v) :
    ActiveKnown db db' := by
  intro d' hd'
  rcases (Table.mem_insert? hins).1 hd' with hold | rfl
  · exact .inl ⟨d', hold, rfl⟩
  · exact .inr hd

theorem activeKnown_changeDocument {documentId : Str}
    {f : Table.Assignment DocumentRow.documentId}
    (hf : ∀ d, (f.apply d).activeSourceVersionId = d.activeSourceVersionId) :
    ActiveKnown db ((changeDocument documentId f).commit db) := by
  refine activeKnown_commit fun a s' hok => ?_
  obtain ⟨-, -, -, rfl⟩ := changeDocument_eq_ok.1 hok
  exact activeKnown_update rfl hf

theorem find?_inserted {versions : Table SourceVersion.sourceVersionId} {v : SourceVersion}
    (hins : db.versions.insert? v = some versions) : versions.find? v.sourceVersionId = some v := by
  rw [Table.find?_insert? hins, if_pos rfl]

theorem activeKnown_reconcile (existing : Option DocumentRow) (r : OriginRequest) :
    ActiveKnown db ((reconcileDiscoveredOrigin existing r).commit db) := by
  refine activeKnown_commit fun a s' hok => ?_
  rcases reconcileDiscoveredOrigin_eq_ok hok with
    ⟨-, documents, sources, versions, snapshots, hins, hvins, rfl⟩ |
    ⟨d, sources, versions, snapshots, -, -, hvins, rfl⟩ | ⟨d, snapshots, -, -, rfl⟩
  · refine activeKnown_insert hins fun id hid => ?_
    have hsame : r.sourceVersionId = id := Option.some.inj hid
    exact ⟨r.version r.documentId r.sourceRef, hsame ▸ find?_inserted hvins⟩
  · exact activeKnown_select rfl (fun _ => rfl) (find?_inserted hvins)
  · exact activeKnown_update rfl fun _ => rfl

theorem queueDocument_active (observedAt : Str) (d : DocumentRow) :
    ((queueDocument observedAt).apply d).activeSourceVersionId = d.activeSourceVersionId :=
  congrArg (fun s => s.2.1) ((queueDocument_neutral observedAt).selection d)

variable [PythonText] [FieldText]

theorem activeKnown (db : DocumentDb) (c : Call) : ActiveKnown db (c.commit db) := by
  by_cases hquiet : c.quiet = true
  · intro d hd
    rw [(quiet_undisturbed db hquiet).documents] at hd
    exact .inl ⟨d, hd, rfl⟩
  cases c with
  | createOrGet r =>
    refine activeKnown_commit fun a s' hok => ?_
    rcases createOrGet_eq_ok hok with rfl | hinsert
    · exact activeKnown_refl s'
    · obtain ⟨-, documents, hins, rfl⟩ := insertDocument_eq_ok hinsert
      exact activeKnown_insert hins fun id hid => absurd hid (Option.some_ne_none id).symm
  | markReady r =>
    refine activeKnown_commit fun a s' hok => ?_
    obtain ⟨-, sources, versions, v, rfl, -, hv, -, -⟩ := markReady_eq_ok hok
    exact activeKnown_select rfl (fun _ => rfl) hv
  | reconcileDiscoveredOrigin existing r => exact activeKnown_reconcile existing r
  | markMissingProviderOrigins provider observedAt => exact activeKnown_update rfl fun _ => rfl
  | createProcessingRun seen r =>
    refine activeKnown_commit fun a s' hok => ?_
    rcases createProcessingRun_eq_ok hok with
      ⟨operations, rfl⟩ | ⟨versionId, runs, operations, -, rfl⟩
    · exact activeKnown_refl db
    · exact activeKnown_update rfl (queueDocument_active r.observedAt)
  | beginProcessingRun runId token observedAt =>
    refine activeKnown_commit fun a s' hok => ?_
    obtain ⟨run, -, -, -, rfl⟩ := beginProcessingRun_eq_ok hok
    exact activeKnown_update rfl fun _ => rfl
  | setProcessingOperation runId token operationRef observedAt => exact activeKnown_refl db
  | clearProcessingOperation runId token expectedRef observedAt => exact activeKnown_refl db
  | finishProcessingRun r =>
    refine activeKnown_commit fun a s' hok => ?_
    obtain ⟨-, run, -, -, -, rfl⟩ := finishProcessingRun_eq_ok hok
    exact activeKnown_update rfl fun _ => rfl
  | appendClassification r =>
    refine activeKnown_commit fun a s' hok => ?_
    obtain ⟨classifications, rfl⟩ := appendClassification_eq_ok hok
    exact activeKnown_update rfl fun _ => rfl
  | markProtectedPending r =>
    refine activeKnown_commit fun a s' hok => ?_
    obtain ⟨d, messages, -, -, rfl⟩ := markProtectedPending_eq_ok hok
    exact activeKnown_update rfl fun _ => rfl
  | markEnqueued documentId durableJobId observedAt =>
    exact activeKnown_changeDocument fun _ => rfl
  | markArchiving documentId taskRef observedAt => exact activeKnown_changeDocument fun _ => rfl
  | markFailure documentId errorCode terminal observedAt =>
    exact activeKnown_changeDocument fun _ => rfl
  | clearSpool documentId expectedSpoolKey observedAt =>
    exact activeKnown_changeDocument fun _ => rfl
  | setArchiveTextVisibility documentId visible observedAt =>
    exact activeKnown_changeDocument fun _ => rfl
  | _ => exact absurd rfl hquiet

end Anchors

section Findings

variable {db : DocumentDb} [PythonText] [FieldText]

omit [FieldText] in
theorem finds_restricted {c : Call} {p : Protection} (h : c.finds db = some p) :
    p.sensitivity.restricted = true := by
  unfold Call.finds at h
  split at h
  · next r =>
    split at h
    · cases h
    · obtain ⟨v, -, rfl⟩ := Option.map_eq_some_iff.1 h
      exact r.target_restricted
  · split at h
    · cases h
    · split at h
      · next hrestricted =>
        cases h
        exact (Bool.and_eq_true_iff.1 hrestricted).1
      · cases h
  · cases h

omit [FieldText] in
/-- What is found is found of a version that the store knows. -/
theorem finds_known (hactive : ∀ d ∈ db.documents.rows, ∀ id, d.activeSourceVersionId = some id →
    ∃ v, db.versions.find? id = some v) {c : Call} {p : Protection} (h : c.finds db = some p) :
    ∃ v, db.versions.find? p.sourceVersionId = some v := by
  unfold Call.finds at h
  split at h
  · next r =>
    split at h
    · cases h
    · next d hreply =>
      obtain ⟨id, hid, rfl⟩ := Option.map_eq_some_iff.1 h
      obtain ⟨d₀, messages, hd₀, rfl, -⟩ :=
        markProtectedPending_eq_ok (Transaction.reply_eq_ok.1 hreply)
      exact hactive d₀ (Table.mem_of_find? hd₀) id hid
  · split at h
    · cases h
    · split at h
      · next hrestricted =>
        cases h
        exact Option.isSome_iff_exists.1 (Bool.and_eq_true_iff.1 hrestricted).2
      · cases h
  · cases h

theorem Ledger.Anchored.step {l : Ledger} (h : l.Anchored) (c : Call) : (l.step c).Anchored := by
  have hextends := (storeStep l.db c).versions
  constructor
  · intro p hp
    rcases List.mem_append.1 hp with hold | hnew
    · obtain ⟨v, hv⟩ := h.found p hold
      exact ⟨v, hextends.find? hv⟩
    · obtain ⟨v, hv⟩ := finds_known h.active (Option.mem_toList.1 hnew)
      exact ⟨v, hextends.find? hv⟩
  · intro p hp
    rcases List.mem_append.1 hp with hold | hnew
    · exact h.restricted p hold
    · exact finds_restricted (Option.mem_toList.1 hnew)
  · intro d' hd' id hid
    rcases activeKnown l.db c d' hd' with ⟨d, hd, hsame⟩ | hknown
    · obtain ⟨v, hv⟩ := h.active d hd id (hsame ▸ hid)
      exact ⟨v, hextends.find? hv⟩
    · exact hknown id hid

end Findings

section Shields

variable {documents documents' : Table DocumentRow.documentId} {found : List Protection}

/-- Updates that keep the version and the sensitivity and show nothing. -/
structure Discreet (f : Table.Assignment DocumentRow.documentId) : Prop where
  active : ∀ d, (f.apply d).activeSourceVersionId = d.activeSourceVersionId
  sensitivity : ∀ d, (f.apply d).sensitivity = d.sensitivity
  visible : ∀ d, d.searchVisible = false → (f.apply d).searchVisible = false

theorem Shields.update {g : DocumentRow → Bool} {f : Table.Assignment DocumentRow.documentId}
    (h : Shields documents found)
    (hf : ∀ d ∈ documents.rows, g d = true → ∀ p ∈ found, p.concerns (f.apply d) →
      (f.apply d).Shielded p) : Shields (documents.update g f) found := by
  intro d' hd' p hp hconcerns
  obtain ⟨d, hd, rfl⟩ := Table.mem_update.1 hd'
  by_cases hg : g d = true
  · rw [if_pos hg] at hconcerns ⊢
    exact hf d hd hg p hp hconcerns
  · rw [if_neg hg] at hconcerns ⊢
    exact h d hd p hp hconcerns

theorem Shields.discreet {g : DocumentRow → Bool} {f : Table.Assignment DocumentRow.documentId}
    (h : Shields documents found) (hf : Discreet f) : Shields (documents.update g f) found := by
  refine h.update fun d hd _ p hp hconcerns => ?_
  obtain ⟨hid, hactive⟩ := hconcerns
  rw [f.keeps] at hid
  rw [hf.active] at hactive
  obtain ⟨hhidden, hrank⟩ := h d hd p hp ⟨hid, hactive⟩
  exact ⟨hf.visible d hhidden, by rw [hf.sensitivity]; exact hrank⟩

/-- Nothing was found of a version that is new. -/
theorem not_concerns_fresh {versions : Table SourceVersion.sourceVersionId} {id : Str}
    {d : DocumentRow}
    (hfound : ∀ p ∈ found, ∃ v, versions.find? p.sourceVersionId = some v)
    (hfresh : versions.find? id = none) (hd : d.activeSourceVersionId = some id)
    {p : Protection} (hp : p ∈ found) : ¬p.concerns d := by
  intro hconcerns
  obtain ⟨v, hv⟩ := hfound p hp
  rw [← Option.some.inj (hd.symm.trans hconcerns.2), hfresh] at hv
  cases hv

theorem Shields.insert {d : DocumentRow} (h : Shields documents found)
    (hins : documents.insert? d = some documents') (hd : ∀ p ∈ found, ¬p.concerns d) :
    Shields documents' found := by
  intro x hx p hp hconcerns
  rcases (Table.mem_insert? hins).1 hx with hold | rfl
  · exact h x hold p hp hconcerns
  · exact absurd hconcerns (hd p hp)

theorem queueDocument_discreet (observedAt : Str) : Discreet (queueDocument observedAt) := by
  constructor <;> intro d <;> by_cases h : d.processingState = .complete <;>
    simp [queueDocument, h]

end Shields

section Steps

variable {l : Ledger} [PythonText] [FieldText]

/-- A call that finds nothing is judged by the documents that it leaves. -/
theorem shielded_step_iff {c : Call} (hsilent : c.finds l.db = none) :
    (l.step c).Shielded ↔ Shields (c.commit l.db).documents l.found := by
  rw [Ledger.Shielded, Ledger.step, hsilent, Option.toList_none, List.append_nil]

omit [PythonText] [FieldText] in
theorem shields_commit {α : Type} {t : Transaction DocumentDb α} {found : List Protection}
    {db : DocumentDb} (h : Shields db.documents found)
    (hok : ∀ a s', t db = .ok (a, s') → Shields s'.documents found) :
    Shields (t.commit db).documents found :=
  Transaction.commit_of_forall (P := fun s : DocumentDb => Shields s.documents found) h hok

omit [PythonText] [FieldText] in
theorem shields_changeDocument {documentId : Str} {f : Table.Assignment DocumentRow.documentId}
    {found : List Protection} {db : DocumentDb} (h : Shields db.documents found)
    (hf : Discreet f) : Shields ((changeDocument documentId f).commit db).documents found := by
  refine shields_commit h fun a s' hok => ?_
  obtain ⟨-, -, -, rfl⟩ := changeDocument_eq_ok.1 hok
  exact h.discreet hf

theorem markReady_shielded_iff (hanchored : l.Anchored) (hshielded : l.Shielded)
    (r : ReadyRequest) : (l.step (.markReady r)).Shielded ↔ (Call.markReady r).KeepsShield l := by
  rw [shielded_step_iff rfl]
  change Shields ((markReady r).commit l.db).documents l.found ↔ _
  rcases hcall : markReady r l.db with e | ⟨x, db'⟩
  · rw [Transaction.commit_of_error hcall]
    refine iff_of_true hshielded fun y hy => ?_
    rw [Transaction.reply_eq_ok, hcall] at hy
    cases hy
  · rw [Transaction.commit_of_ok hcall]
    obtain ⟨-, sources, versions, v, rfl, -, -, -, hselected⟩ := markReady_eq_ok hcall
    constructor
    · intro hafter y hy d hd w hw p hp hof hversion
      rcases hselected with hfound | ⟨hnone, -⟩
      · obtain rfl : v = w := Option.some.inj (hfound.symm.trans hw)
        refine hafter _ (mem_updateDocument hd) p hp ⟨hof, ?_⟩
        rw [hversion]
        rfl
      · rw [hnone] at hw
        cases hw
    · intro hkeeps
      refine hshielded.update fun d hd hid p hp hconcerns => ?_
      have hof : d.documentId = r.documentId := of_decide_eq_true hid
      rcases hselected with hfound | ⟨-, hfresh⟩
      · exact hkeeps x (Transaction.reply_eq_ok.2 (by
          rw [hcall, Transaction.commit_of_ok hcall])) d (hof ▸ Table.find?_of_mem hd) v hfound p hp
            hconcerns.1 (Option.some.inj hconcerns.2).symm
      · exact absurd hconcerns (not_concerns_fresh hanchored.found hfresh rfl hp)

theorem reconcile_shielded_iff (hanchored : l.Anchored) (hshielded : l.Shielded)
    (existing : Option DocumentRow) (r : OriginRequest) :
    (l.step (.reconcileDiscoveredOrigin existing r)).Shielded ↔
      (Call.reconcileDiscoveredOrigin existing r).KeepsShield l := by
  rw [shielded_step_iff rfl]
  change Shields ((reconcileDiscoveredOrigin existing r).commit l.db).documents l.found ↔ _
  rcases hcall : reconcileDiscoveredOrigin existing r l.db with e | ⟨x, db'⟩
  · rw [Transaction.commit_of_error hcall]
    refine iff_of_true hshielded fun y hy => ?_
    rw [Transaction.reply_eq_ok, hcall] at hy
    cases hy
  · have hreply : (reconcileDiscoveredOrigin existing r).reply l.db = .ok x :=
      Transaction.reply_eq_ok.2 (by rw [hcall, Transaction.commit_of_ok hcall])
    rw [Transaction.commit_of_ok hcall]
    rcases reconcileDiscoveredOrigin_eq_ok hcall with
      ⟨rfl, documents, sources, versions, snapshots, hins, hvins, rfl⟩ |
      ⟨e, sources, versions, snapshots, rfl, hchanged, hvins, rfl⟩ |
      ⟨e, snapshots, rfl, hsame, rfl⟩
    · have hfresh := (Table.insert?_eq_some hvins).1
      refine iff_of_true (hshielded.insert hins fun p hp => ?_) fun y _ e he =>
        absurd he (Option.some_ne_none e).symm
      exact not_concerns_fresh hanchored.found hfresh rfl hp
    · have hfresh := (Table.insert?_eq_some hvins).1
      refine iff_of_true (hshielded.update fun d _ _ p hp hconcerns => ?_) fun y _ e' he hsame => ?_
      · exact absurd hconcerns (not_concerns_fresh hanchored.found hfresh rfl hp)
      · rw [← Option.some.inj he] at hsame
        exact absurd hsame hchanged
    · constructor
      · intro hafter y _ e' he _ d hd p hp hconcerns
        rw [← Option.some.inj he] at hd
        have hhidden := (hafter _ (mem_updateDocument hd) p hp hconcerns).1
        exact Bool.noConfusion hhidden
      · intro hkeeps
        refine hshielded.update fun d hd hid p hp hconcerns => ?_
        have hof : d.documentId = e.documentId := of_decide_eq_true hid
        exact absurd hconcerns (hkeeps x hreply e rfl hsame d (hof ▸ Table.find?_of_mem hd) p hp)

theorem classification_shielded_iff (hanchored : l.Anchored) (hshielded : l.Shielded)
    (r : ClassificationRequest) :
    (l.step (.appendClassification r)).Shielded ↔ (Call.appendClassification r).KeepsShield l := by
  rcases hcall : appendClassification r l.db with e | ⟨x, db'⟩
  · have hreply : (appendClassification r).reply l.db = .error e := by
      rw [Transaction.reply, hcall]
      rfl
    rw [shielded_step_iff (by simp only [Call.finds, hreply])]
    change Shields ((appendClassification r).commit l.db).documents l.found ↔ _
    rw [Transaction.commit_of_error hcall]
    refine iff_of_true hshielded fun y hy => ?_
    rw [hreply] at hy
    cases hy
  · have hreply : (appendClassification r).reply l.db = .ok x :=
      Transaction.reply_eq_ok.2 (by rw [hcall, Transaction.commit_of_ok hcall])
    have hcommit := Transaction.commit_of_ok hcall
    obtain ⟨classifications, rfl⟩ := appendClassification_eq_ok hcall
    constructor
    · intro hafter y _ d hd hversion p hp hconcerns
      have hmem : (r.classify (l.db.humanLabel r.documentId r.sourceVersionId)).apply d ∈
          ((Call.appendClassification r).commit l.db).documents.rows := by
        change _ ∈ ((appendClassification r).commit l.db).documents.rows
        rw [hcommit]
        obtain ⟨hrow, hid⟩ := Table.find?_eq_some.1 hd
        exact Table.mem_update.2 ⟨d, hrow, by simp [ClassificationRequest.targets, hid, hversion]⟩
      exact (hafter _ hmem p (List.mem_append_left _ hp) hconcerns).2
    · intro hkeeps d' hd' p hp hconcerns
      change d' ∈ ((appendClassification r).commit l.db).documents.rows at hd'
      rw [hcommit] at hd'
      obtain ⟨d, hd, rfl⟩ := Table.mem_update.1 hd'
      -- a label is found of the documents that it is written to
      have hnew : p ∈ (Call.finds l.db (.appendClassification r)).toList →
          p.documentId = r.documentId ∧ p.sourceVersionId = r.sourceVersionId ∧
            p.sensitivity = r.selectedSensitivity := by
        intro hmem
        rw [Option.mem_toList] at hmem
        simp only [Call.finds, hreply] at hmem
        split at hmem
        · cases hmem
          exact ⟨rfl, rfl, rfl⟩
        · cases hmem
      by_cases htarget : r.targets d = true
      · rw [if_pos htarget] at hconcerns ⊢
        simp only [ClassificationRequest.targets, Bool.and_eq_true, decide_eq_true_eq] at htarget
        have hrank : p.sensitivity.rank ≤ r.selectedSensitivity.rank := by
          rcases List.mem_append.1 hp with hold | hfound
          · exact hkeeps x hreply d (htarget.1 ▸ Table.find?_of_mem hd) htarget.2 p hold hconcerns
          · rw [(hnew hfound).2.2]
        have hrestricted : p.sensitivity.restricted = true :=
          (hanchored.step (.appendClassification r)).restricted p hp
        have hselected : r.selectedSensitivity.restricted = true := by
          rw [Sensitivity.restricted_iff_rank] at hrestricted ⊢
          omega
        refine ⟨?_, hrank⟩
        change (!r.selectedSensitivity.restricted) = false
        rw [hselected]
        rfl
      · rw [if_neg htarget] at hconcerns ⊢
        rcases List.mem_append.1 hp with hold | hfound
        · exact hshielded d hd p hold hconcerns
        · obtain ⟨hof, hversion, -⟩ := hnew hfound
          refine absurd ?_ htarget
          simp [ClassificationRequest.targets, ← hof, ← hversion, hconcerns.1, hconcerns.2]

theorem protect_shielded_iff (hshielded : l.Shielded) (r : ProtectRequest) :
    (l.step (.markProtectedPending r)).Shielded ↔ (Call.markProtectedPending r).KeepsShield l := by
  rcases hcall : markProtectedPending r l.db with e | ⟨x, db'⟩
  · have hreply : (markProtectedPending r).reply l.db = .error e := by
      rw [Transaction.reply, hcall]
      rfl
    rw [shielded_step_iff (by simp only [Call.finds, hreply])]
    change Shields ((markProtectedPending r).commit l.db).documents l.found ↔ _
    rw [Transaction.commit_of_error hcall]
    refine iff_of_true hshielded fun y hy => ?_
    rw [hreply] at hy
    cases hy
  · have hreply : (markProtectedPending r).reply l.db = .ok x :=
      Transaction.reply_eq_ok.2 (by rw [hcall, Transaction.commit_of_ok hcall])
    have hcommit := Transaction.commit_of_ok hcall
    obtain ⟨d₀, messages, hd₀, rfl, rfl⟩ := markProtectedPending_eq_ok hcall
    constructor
    · intro hafter y _ d hd p hp hconcerns
      have hmem : r.withhold.apply d ∈
          ((Call.markProtectedPending r).commit l.db).documents.rows := by
        change _ ∈ ((markProtectedPending r).commit l.db).documents.rows
        rw [hcommit]
        exact mem_updateDocument hd
      exact (hafter _ hmem p (List.mem_append_left _ hp) hconcerns).2
    · intro hkeeps d' hd' p hp hconcerns
      change d' ∈ ((markProtectedPending r).commit l.db).documents.rows at hd'
      rw [hcommit] at hd'
      obtain ⟨d, hd, rfl⟩ := Table.mem_update.1 hd'
      have hnew : p ∈ (Call.finds l.db (.markProtectedPending r)).toList →
          p.documentId = r.documentId ∧ p.sensitivity = r.target := by
        intro hmem
        rw [Option.mem_toList] at hmem
        simp only [Call.finds, hreply] at hmem
        obtain ⟨id, -, rfl⟩ := Option.map_eq_some_iff.1 hmem
        exact ⟨rfl, rfl⟩
      by_cases hid : d.documentId = r.documentId
      · rw [if_pos (decide_eq_true hid)] at hconcerns ⊢
        refine ⟨rfl, ?_⟩
        rcases List.mem_append.1 hp with hold | hfound
        · exact hkeeps _ hreply d (hid ▸ Table.find?_of_mem hd) p hold hconcerns
        · rw [(hnew hfound).2]
          rfl
      · rw [if_neg (by simpa using hid)] at hconcerns ⊢
        rcases List.mem_append.1 hp with hold | hfound
        · exact hshielded d hd p hold hconcerns
        · exact absurd (hconcerns.1.symm.trans (hnew hfound).1) hid

theorem shielded_iff (hanchored : l.Anchored) (hshielded : l.Shielded) (c : Call) :
    (l.step c).Shielded ↔ c.KeepsShield l := by
  by_cases hquiet : c.quiet = true
  · have hsilent : c.finds l.db = none := by cases c <;> first | rfl | cases hquiet
    rw [shielded_step_iff hsilent, (quiet_undisturbed l.db hquiet).documents]
    refine iff_of_true hshielded ?_
    cases c <;> trivial
  cases c with
  | createOrGet r =>
    refine (shielded_step_iff rfl).trans (iff_of_true ?_ trivial)
    refine shields_commit hshielded fun a s' hok => ?_
    rcases createOrGet_eq_ok hok with rfl | hinsert
    · exact hshielded
    · obtain ⟨-, documents, hins, rfl⟩ := insertDocument_eq_ok hinsert
      exact hshielded.insert hins fun p _ hconcerns =>
        absurd hconcerns.2 (Option.some_ne_none p.sourceVersionId).symm
  | markReady r => exact markReady_shielded_iff hanchored hshielded r
  | reconcileDiscoveredOrigin existing r =>
    exact reconcile_shielded_iff hanchored hshielded existing r
  | markMissingProviderOrigins provider observedAt =>
    refine (shielded_step_iff rfl).trans (iff_of_true ?_ trivial)
    exact hshielded.discreet ⟨fun _ => rfl, fun _ => rfl, fun _ _ => rfl⟩
  | createProcessingRun seen r =>
    refine (shielded_step_iff rfl).trans (iff_of_true ?_ trivial)
    refine shields_commit hshielded fun a s' hok => ?_
    rcases createProcessingRun_eq_ok hok with
      ⟨operations, rfl⟩ | ⟨versionId, runs, operations, -, rfl⟩
    · exact hshielded
    · exact hshielded.discreet (queueDocument_discreet r.observedAt)
  | beginProcessingRun runId token observedAt =>
    refine (shielded_step_iff rfl).trans (iff_of_true ?_ trivial)
    refine shields_commit hshielded fun a s' hok => ?_
    obtain ⟨run, -, -, -, rfl⟩ := beginProcessingRun_eq_ok hok
    exact hshielded.discreet ⟨fun _ => rfl, fun _ => rfl, fun _ h => h⟩
  | setProcessingOperation runId token operationRef observedAt =>
    exact (shielded_step_iff rfl).trans (iff_of_true hshielded trivial)
  | clearProcessingOperation runId token expectedRef observedAt =>
    exact (shielded_step_iff rfl).trans (iff_of_true hshielded trivial)
  | finishProcessingRun r =>
    refine (shielded_step_iff rfl).trans (iff_of_true ?_ trivial)
    refine shields_commit hshielded fun a s' hok => ?_
    obtain ⟨-, run, -, -, -, rfl⟩ := finishProcessingRun_eq_ok hok
    exact hshielded.discreet ⟨fun _ => rfl, fun _ => rfl, fun _ h => h⟩
  | appendClassification r => exact classification_shielded_iff hanchored hshielded r
  | markProtectedPending r => exact protect_shielded_iff hshielded r
  | markEnqueued documentId durableJobId observedAt =>
    refine (shielded_step_iff rfl).trans (iff_of_true ?_ trivial)
    exact shields_changeDocument hshielded ⟨fun _ => rfl, fun _ => rfl, fun _ h => h⟩
  | markArchiving documentId taskRef observedAt =>
    refine (shielded_step_iff rfl).trans (iff_of_true ?_ trivial)
    exact shields_changeDocument hshielded ⟨fun _ => rfl, fun _ => rfl, fun _ h => h⟩
  | markFailure documentId errorCode terminal observedAt =>
    refine (shielded_step_iff rfl).trans (iff_of_true ?_ trivial)
    exact shields_changeDocument hshielded ⟨fun _ => rfl, fun _ => rfl, fun _ h => h⟩
  | clearSpool documentId expectedSpoolKey observedAt =>
    refine (shielded_step_iff rfl).trans (iff_of_true ?_ trivial)
    exact shields_changeDocument hshielded ⟨fun _ => rfl, fun _ => rfl, fun _ h => h⟩
  | setArchiveTextVisibility documentId visible observedAt =>
    refine (shielded_step_iff rfl).trans (iff_of_true ?_ trivial)
    exact shields_changeDocument hshielded ⟨fun _ => rfl, fun _ => rfl, fun _ h => h⟩
  | _ => exact absurd rfl hquiet

end Steps

section Runs

variable [PythonText] [FieldText]

/-- A restricted version stays hidden all along a run exactly where every call keeps it so. -/
theorem restricted_versions_hidden (calls : List Call) :
    (∀ pre post, calls = pre ++ post → (run Ledger.step ⟨∅, []⟩ pre).Shielded) ↔
      ∀ pre c post, calls = pre ++ c :: post →
        c.KeepsShield (run Ledger.step ⟨∅, []⟩ pre) := by
  have hanchored : Ledger.Anchored ⟨∅, []⟩ :=
    ⟨fun p hp => absurd hp List.not_mem_nil, fun p hp => absurd hp List.not_mem_nil,
      fun d hd => absurd hd List.not_mem_nil⟩
  have hshielded : Ledger.Shielded ⟨∅, []⟩ := fun d hd => absurd hd List.not_mem_nil
  exact @run_invariant_iff _ _ Ledger.step Ledger.Shielded Ledger.Anchored
    (fun l c => c.KeepsShield l) (fun l c hl => hl.step c)
    (fun l c hanchored hshielded => shielded_iff hanchored hshielded c) _ hanchored hshielded calls

end Runs

section Samples

theorem not_shielded_of_visible {l : Ledger} {p : Protection} (hfound : p ∈ l.found)
    (hrow : (l.db.documents.find? p.documentId).any (fun d =>
      d.searchVisible && d.activeSourceVersionId = some p.sourceVersionId) = true) :
    ¬l.Shielded := by
  intro hshielded
  obtain ⟨d, hd, hvisible⟩ := (Option.any_eq_true _ _).1 hrow
  simp only [Bool.and_eq_true, decide_eq_true_eq] at hvisible
  obtain ⟨hmem, hid⟩ := Table.find?_eq_some.1 hd
  have hhidden := (hshielded d hmem p hfound ⟨hid.symm, hvisible.2⟩).1
  rw [hvisible.1] at hhidden
  cases hhidden

def identityFound : ProtectRequest where
  documentId := "document-1"
  runId := "run-1"
  sensitivity := .identity
  reasonCode := "restricted_document_class"
  messageId := "message-1"
  observedAt := "t4"

/-- The origin is seen again as it was. -/
def seenAgain : OriginRequest :=
  { firstOriginal with observedAt := "t5", sourceVersionId := "version-2" }

def rediscoveredCalls : List Call := [
  .reconcileDiscoveredOrigin none firstOriginal,
  .createProcessingRun (some firstOriginal.row) firstRun,
  .beginProcessingRun "run-1" 1 "t3",
  .markProtectedPending identityFound,
  .reconcileDiscoveredOrigin (some firstOriginal.row) seenAgain]

theorem rediscovery_exposes :
    ¬∀ calls : List Call,
      (run (@Ledger.step asciiText plainText) ⟨∅, []⟩ calls).Shielded := by
  intro h
  exact not_shielded_of_visible (p := ⟨"document-1", "version-1", .identity⟩)
    (by decide +kernel) (by decide +kernel) (h rediscoveredCalls)

end Samples

end HardyAI.Documents
