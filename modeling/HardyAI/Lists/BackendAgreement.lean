import HardyAI.Lists.BackendMutations

/-! Runs of the same calls on both storages, which answer alike exactly as long as no creation
meets an existing list and no empty addition is repeated for a deleted one. -/

open Foundation Foundation.Json Foundation.Trace

namespace HardyAI.Lists

section Reads

variable [PythonText] {ρ : Str ≃ Str} {db : ListDb} {m : Memory.MemoryStore} {owner name : Str}

/-- What `list_records` reports of a collection. -/
def Collection.reported (c : Collection) : Str × Str × Str × Str :=
  (c.listId, c.ownerUserId, c.listName, c.updatedAt)

theorem listRecords_agree (hsame : Same ρ db m) (howner : NormalText owner) :
    StorageReply.Agrees ρ (.records (listRecords db owner))
      (.records (Memory.listRecords m owner)) := by
  have hmemory : (Memory.listRecords m owner).map ListRow.reported =
      (m.collections.filter fun c => c.ownerUserId = normalized owner).map
        Collection.reported := by
    rw [Memory.listRecords, ownerKey_of_normal howner, Memory.MemoryStore.collections,
      List.filter_map, List.map_map, List.map_map]
    rfl
  have hsqlite : (m.collections.filter fun c => c.ownerUserId = normalized owner).map
      Collection.reported =
        (db.lists.rows.filter fun l => l.ownerUserId = normalized owner).map
          fun l => { l with listId := ρ l.listId }.reported := by
    rw [hsame.collections, ListDb.collections, List.filter_map, List.filter_map, List.map_map,
      List.map_map]
    rfl
  have hperm : ((db.lists.rows.filter fun l => l.ownerUserId = normalized owner).insertionSort
      fun a b => a.listName ≤ b.listName).Perm
        (db.lists.rows.filter fun l => l.ownerUserId = normalized owner) :=
    List.perm_insertionSort _ _
  show ((Memory.listRecords m owner).map ListRow.reported).Perm _
  rw [hmemory, hsqlite]
  exact (hperm.map _).symm

omit [PythonText] in
/-- The items of a list are read in table order. -/
theorem entryOrder_sorted {L : Str} (h : db.Counted L) :
    (db.itemsOf L).insertionSort ListItem.entryOrder = db.itemsOf L := by
  have hpositions : ((db.itemsOf L).map ListItem.position).Pairwise (· < ·) := by
    rw [h]
    exact pairwise_countFrom 1 _
  exact List.Pairwise.insertionSort_eq ((List.pairwise_map.1 hpositions).imp .inl)

theorem listItemEntries_agree (hsame : Same ρ db m) (hcounted : ∀ L, db.Counted L)
    (howner : NormalText owner) (hname : normalized name = name) :
    StorageReply.Agrees ρ (.entries (listItemEntries db owner name))
      (.entries (Memory.listItemEntries m owner name)) := by
  have hboth := hsame.named (normalized owner) name
  show Memory.listItemEntries m owner name =
    (listItemEntries db owner name).map (ItemSummary.rename ρ)
  rw [Memory.listItemEntries, ownerKey_of_normal howner, listItemEntries, hname]
  cases hnamed : db.named (normalized owner) name with
  | none =>
    rw [hnamed, Option.map_none, Option.map_eq_none_iff] at hboth
    rw [hboth]
    rfl
  | some row =>
    rw [hnamed, Option.map_some, Option.map_eq_some_iff] at hboth
    obtain ⟨l, hl, hcollection⟩ := hboth
    rw [hl]
    dsimp only
    have hentries := congrArg (List.map ItemEntry.summary) (entries_eq hcollection)
    rw [List.map_map, List.map_map] at hentries
    rw [entryOrder_sorted (hcounted row.listId), List.map_map]
    exact hentries

end Reads

section Steps

variable [PythonText] {ρ : Str ≃ Str} {db : ListDb} {m : Memory.MemoryStore} {used : List Str}
  {c : StorageCall}

theorem typed_matches {t : TypedCall} (hsame : Same ρ db m) (hsound : Sound used db)
    (hfresh : ∀ id ∈ t.generated, id ∉ used) (hnodup : t.generated.Nodup)
    (hnormal : (StorageCall.typed t).Normal) (halike : (StorageCall.typed t).Alike db) :
    Matches ρ (t.run db) (Memory.run (t.rename ρ) m) := by
  cases t with
  | create freshId r =>
    exact create_matches hsame hsound (hfresh freshId (List.mem_singleton_self _)) hnormal halike
  | add fresh r => exact add_matches hsame hsound hfresh hnodup hnormal halike
  | mutate r => exact mutate_matches hsame hsound hnormal

omit [PythonText] in
theorem agrees_of_matches {t : Transaction ListDb Outcome}
    {t' : Transaction Memory.MemoryStore Outcome} (hsame : Same ρ db m)
    (h : Matches ρ (t db) (t' m)) :
    StorageReply.Agrees ρ (.typed (t.reply db)) (.typed (t'.reply m)) ∧
      Same ρ (t.commit db) (t'.commit m) := by
  rw [Transaction.reply, Transaction.reply, Transaction.commit, Transaction.commit]
  cases hrun : t db with
  | error e =>
    cases hrun' : t' m with
    | error e' => exact ⟨trivial, hsame⟩
    | ok p' =>
      rw [hrun, hrun'] at h
      exact absurd h id
  | ok p =>
    cases hrun' : t' m with
    | error e' =>
      rw [hrun, hrun'] at h
      exact absurd h id
    | ok p' =>
      rw [hrun, hrun'] at h
      exact h

/-- A call on which both storages answer alike. -/
theorem call_agrees (hsame : Same ρ db m) (hsound : Sound used db)
    (hfresh : ∀ id ∈ c.generated, id ∉ used) (hnodup : c.generated.Nodup) (hnormal : c.Normal)
    (halike : c.Alike db) :
    StorageReply.Agrees ρ (c.run db) (Memory.runCall m (c.rename ρ)) ∧
      Same ρ (c.step db) (Memory.stepCall m (c.rename ρ)) := by
  cases c with
  | typed t => exact agrees_of_matches hsame (typed_matches hsame hsound hfresh hnodup hnormal halike)
  | listRecords owner => exact ⟨listRecords_agree hsame hnormal, hsame⟩
  | listItemEntries owner name =>
    exact ⟨listItemEntries_agree hsame hsound.counted hnormal.1 hnormal.2, hsame⟩

/-- A creation that meets an existing list: only the list in memory is given a new version. -/
theorem create_disagrees {freshId : Str} {r : CreateRequest} {row : ListRow}
    (hsame : Same ρ db m) (hnormal : (StorageCall.typed (.create freshId r)).Normal)
    (hop : db.operations.find? r.operationId = none)
    (hnamed : db.named (normalized r.ownerUserId) (normalized r.listNameNormalized) = some row)
    (hversion : row.updatedAt ≠ r.timestamp) :
    ¬StorageReply.Agrees ρ (.typed ((createListWithOperation freshId r).reply db))
      (.typed ((Memory.createCollection (ρ freshId) r).reply m)) := by
  obtain ⟨howner, hname⟩ := hnormal
  obtain ⟨operations, -, hrecord⟩ := @record_of_none db {
    operationId := r.operationId, ownerUserId := normalized r.ownerUserId
    action := .createCollection
    targetRef := row.listId, argumentsHash := r.argumentsHash
    result := .created false row.listId, createdAt := r.timestamp } hop
  have hrun : (createListWithOperation freshId r).reply db =
      .ok (.collection row false false) := by
    have hinsert : db.findOrInsert (r.row freshId) = .ok (row, false, db) := by
      rw [ListDb.findOrInsert]
      have hrow : db.named (r.row freshId).ownerUserId (r.row freshId).listNameNormalized =
          some row := hnamed
      rw [hrow]
    rw [Transaction.reply, createListWithOperation, recorded_of_none hop]
    simp only [ok_bind, hinsert, hrecord]
    rfl
  have hfound : m.operations.find? r.operationId = none := by
    rw [hsame.find?_operations, hop]
    rfl
  have hboth := hsame.named (normalized r.ownerUserId) (normalized r.listNameNormalized)
  rw [hnamed, Option.map_some, Option.map_eq_some_iff, hname] at hboth
  obtain ⟨l, hl, -⟩ := hboth
  obtain ⟨row', hrun', hstamp⟩ : ∃ row', (Memory.createCollection (ρ freshId) r).reply m =
      .ok (.collection row' false false) ∧ row'.updatedAt = r.timestamp := by
    rw [Transaction.reply, Memory.createCollection, ownerKey_of_normal howner]
    simp only [Memory.MemoryStore.recorded, hfound, ok_bind, hl, Option.isNone_some]
    exact ⟨_, rfl, rfl⟩
  rw [hrun, hrun']
  rintro ⟨-, -, -, hupdated, -⟩
  exact hversion (hupdated.symm.trans hstamp)

/-- A repeated addition of no items to a list that is gone: only the tables still answer it. -/
theorem add_disagrees {fresh : Nat → Str} {r : AddRequest} {op : ListOperation} {existing : Nat}
    {listId : Str} (hsame : Same ρ db m) (hnormal : (StorageCall.typed (.add fresh r)).Normal)
    (hop : db.operations.find? r.operationId = some op)
    (hidentity : op.identity = (TypedCall.add fresh r).identity)
    (hresult : op.result = .added existing [] listId)
    (hgone : db.owned (normalized r.ownerUserId) (strip r.listId) = none) :
    ¬StorageReply.Agrees ρ (.typed ((addListItemsWithOperation fresh r).reply db))
      (.typed ((Memory.addItems (fun k => ρ (fresh k)) { r with listId := ρ r.listId }).reply m)) := by
  obtain ⟨howner, hlist⟩ := hnormal
  have hfind : db.operations.find? (TypedCall.add fresh r).operationId = some op := hop
  have haction : op.action = .addItems := by
    have hsome := congrArg Identity.action hidentity
    exact Option.some.inj hsome
  have htarget : op.targetRef = r.listId := by
    have hsome := congrArg Identity.target hidentity
    simp only [ListOperation.identity, TypedCall.identity, haction] at hsome
    exact (Option.some.inj hsome).trans hlist
  have hreplayed : replayItems db op.targetRef op = .ok ([], existing) := by
    rw [replayItems, hresult]
    rfl
  have hrun : (addListItemsWithOperation fresh r).reply db =
      .ok (.items op.targetRef [] existing true) := by
    have hall : (TypedCall.add fresh r).run db = (replay op db).map fun o => (o, db) :=
      (run_recorded hfind).1 hidentity
    rw [replay, haction] at hall
    dsimp only at hall
    rw [hreplayed] at hall
    rw [Transaction.reply, show addListItemsWithOperation fresh r db = _ from hall]
    rfl
  have hbyId : m.byId (normalized r.ownerUserId) (ρ r.listId) = none := by
    rw [hlist] at hgone
    rcases hsame.byId_cases (normalized r.ownerUserId) r.listId with ⟨-, hnone⟩ | ⟨row, _, hrow, -⟩
    · exact hnone
    · rw [hgone] at hrow
      cases hrow
  have hrun' : ∃ e, (Memory.addItems (fun k => ρ (fresh k)) { r with listId := ρ r.listId }).reply m
      = .error e := by
    have hmatch : (op.ownerUserId = normalized r.ownerUserId && op.action = .addItems &&
        op.targetRef = r.listId && op.argumentsHash = r.argumentsHash : Bool) = true := by
      have hown := congrArg Identity.owner hidentity
      have hhash := congrArg Identity.argumentsHash hidentity
      simp only [Bool.and_eq_true, decide_eq_true_eq]
      exact ⟨⟨⟨hown, haction⟩, htarget⟩, hhash⟩
    rw [Transaction.reply, Memory.addItems, ownerKey_of_normal howner]
    dsimp only
    rw [hsame.recorded (fun op => op.ownerUserId = normalized r.ownerUserId &&
      op.action = .addItems && op.targetRef = r.listId && op.argumentsHash = r.argumentsHash)
      fun op => congrArg₂ and (congrArg₂ and rfl (decide_eq_decide.2 ρ.injective.eq_iff)) rfl,
      recorded_of_find? hop, if_pos hmatch]
    simp only [Except.map, Option.map_some, ok_bind, hbyId]
    exact ⟨_, rfl⟩
  obtain ⟨e, herror⟩ := hrun'
  rw [hrun, herror]
  exact id

/-- Where the storages are not alike, they disagree at once. -/
theorem call_disagrees (hsame : Same ρ db m) (hnormal : c.Normal)
    (hversion : ∀ l ∈ db.lists.rows, c.timestamp? ≠ some l.updatedAt) (hnot : ¬c.Alike db) :
    ¬StorageReply.Agrees ρ (c.run db) (Memory.runCall m (c.rename ρ)) := by
  cases c with
  | typed t =>
    cases t with
    | create freshId r =>
      simp only [StorageCall.Alike, not_or] at hnot
      obtain ⟨hop, hnamed⟩ := hnot
      rw [Option.not_isSome_iff_eq_none] at hop
      obtain ⟨row, hrow⟩ := Option.ne_none_iff_exists'.1 hnamed
      refine create_disagrees hsame hnormal hop hrow fun heq => ?_
      exact hversion row (named_eq_some hrow).1 (congrArg some heq.symm)
    | add fresh r =>
      simp only [StorageCall.Alike, not_forall, Option.not_isSome_iff_eq_none] at hnot
      obtain ⟨op, existing, listId, hop, hidentity, hresult, hgone⟩ := hnot
      exact add_disagrees hsame hnormal hop hidentity hresult hgone
    | mutate r => exact absurd trivial hnot
  | listRecords owner => exact absurd trivial hnot
  | listItemEntries owner name => exact absurd trivial hnot

end Steps

section Runs

variable [PythonText] {ρ : Str ≃ Str}

theorem sound_step {db : ListDb} {used : List Str} {c : StorageCall} (hsound : Sound used db)
    (hfresh : ∀ id ∈ c.generated, id ∉ used) (hnodup : c.generated.Nodup) :
    Sound (used ++ c.generated) (c.step db) := by
  cases c with
  | typed t => exact hsound.run hfresh hnodup
  | listRecords owner => exact hsound.mono (List.subset_append_left _ _)
  | listItemEntries owner name => exact hsound.mono (List.subset_append_left _ _)

/-- The tables after any calls that generate new identifiers. -/
theorem sound_run (calls : List StorageCall) (hfresh : (calls.flatMap StorageCall.generated).Nodup) :
    Sound (calls.flatMap StorageCall.generated) (run StorageCall.step ∅ calls) := by
  induction calls using List.reverseRecOn with
  | nil => exact sound_empty
  | append_singleton calls c ih =>
    rw [List.flatMap_append, List.flatMap_singleton] at hfresh ⊢
    obtain ⟨hold, hnew, hdisjoint⟩ := List.nodup_append.1 hfresh
    rw [run_concat]
    exact sound_step (ih hold) (fun id hid hused => hdisjoint id hused id hid rfl) hnew

/-- The versions of the lists are timestamps of earlier calls. -/
theorem updatedAt_mem (calls : List StorageCall) :
    ∀ l ∈ (run StorageCall.step ∅ calls).lists.rows,
      l.updatedAt ∈ calls.filterMap StorageCall.timestamp? := by
  induction calls using List.reverseRecOn with
  | nil => exact fun _ hl => absurd hl List.not_mem_nil
  | append_singleton calls c ih =>
    intro l hl
    rw [run_concat] at hl
    rw [List.filterMap_append, List.mem_append]
    cases c with
    | typed t =>
      have hversion : ((StorageCall.typed t).step (run StorageCall.step ∅ calls)).version l.listId =
          some l.updatedAt := by
        rw [ListDb.version, Table.find?_of_mem hl]
        rfl
      have hold : (run StorageCall.step ∅ calls).version l.listId = some l.updatedAt →
          l.updatedAt ∈ calls.filterMap StorageCall.timestamp? := by
        intro hbefore
        obtain ⟨l', hl', hsame⟩ := Option.map_eq_some_iff.1 hbefore
        exact hsame ▸ ih l' (Table.mem_of_find? hl')
      obtain ⟨target, hwritten⟩ := typed_written t (run StorageCall.step ∅ calls)
      by_cases htarget : l.listId = target
      · subst htarget
        rcases hwritten.target with ⟨-, hkept⟩ | hnew | hnone
        · exact .inl (hold (hkept.symm.trans hversion))
        · have hstamp : some l.updatedAt = some t.timestamp := hversion.symm.trans hnew
          refine .inr ?_
          rw [Option.some.inj hstamp]
          exact List.mem_singleton_self _
        · cases hversion.symm.trans hnone
      · exact .inl (hold ((hwritten.others l.listId htarget).2.symm.trans hversion))
    | listRecords owner => exact .inl (ih l hl)
    | listItemEntries owner name => exact .inl (ih l hl)

theorem same_run (calls : List StorageCall) (hnormal : ∀ c ∈ calls, c.Normal)
    (hfresh : (calls.flatMap StorageCall.generated).Nodup)
    (halike : ∀ pre c post, calls = pre ++ c :: post → c.Alike (run StorageCall.step ∅ pre)) :
    Same ρ (run StorageCall.step ∅ calls)
      (run Memory.stepCall ∅ (calls.map (StorageCall.rename ρ))) := by
  induction calls using List.reverseRecOn with
  | nil => exact same_empty
  | append_singleton calls c ih =>
    rw [List.flatMap_append, List.flatMap_singleton] at hfresh
    obtain ⟨hold, hnew, hdisjoint⟩ := List.nodup_append.1 hfresh
    have hbefore := ih (fun d hd => hnormal d (List.mem_append_left _ hd)) hold
      fun pre d post hsplit => halike pre d (post ++ [c]) (by rw [hsplit]; simp)
    rw [List.map_append, List.map_singleton, run_concat, run_concat]
    exact (call_agrees hbefore (sound_run calls hold)
      (fun id hid hused => hdisjoint id hused id hid rfl) hnew
      (hnormal c (List.mem_append_right _ (List.mem_singleton_self c)))
      (halike calls c [] rfl)).2

omit [PythonText] in
/-- A prefix of calls, and its next call. -/
theorem split_fresh {calls pre post : List StorageCall} {c : StorageCall}
    (hfresh : (calls.flatMap StorageCall.generated).Nodup) (hsplit : calls = pre ++ c :: post) :
    (pre.flatMap StorageCall.generated).Nodup ∧ c.generated.Nodup ∧
      ∀ id ∈ c.generated, id ∉ pre.flatMap StorageCall.generated := by
  rw [hsplit, List.flatMap_append, List.flatMap_cons] at hfresh
  obtain ⟨hpre, hrest, hdisjoint⟩ := List.nodup_append.1 hfresh
  refine ⟨hpre, (List.nodup_append.1 hrest).1, fun id hid hused => ?_⟩
  exact hdisjoint id hused id (List.mem_append_left _ hid) rfl

theorem split_stamps {calls pre post : List StorageCall} {c : StorageCall}
    (hstamps : (calls.filterMap StorageCall.timestamp?).Nodup) (hsplit : calls = pre ++ c :: post) :
    ∀ l ∈ (run StorageCall.step ∅ pre).lists.rows, c.timestamp? ≠ some l.updatedAt := by
  intro l hl hstamp
  rw [hsplit, List.filterMap_append, List.filterMap_cons, hstamp] at hstamps
  obtain ⟨-, -, hdisjoint⟩ := List.nodup_append.1 hstamps
  exact hdisjoint l.updatedAt (updatedAt_mem pre l hl) l.updatedAt List.mem_cons_self rfl

end Runs

section Samples

def firstCreation : StorageCall := .typed (.create "list-1" groceries)

/-- A second operation that creates the same list. -/
def groceriesAgain : CreateRequest :=
  ⟨"u1", "Groceries", "groceries", "u1", "t2", "create-2", "hash-2"⟩

def secondCreation : StorageCall := .typed (.create "list-2" groceriesAgain)

theorem normal_creation {freshId : Str} {r : CreateRequest} (howner : r.ownerUserId = text "u1")
    (hname : r.listNameNormalized = text "groceries") :
    @StorageCall.Normal asciiText (.typed (.create freshId r)) := by
  have hnormal : @NormalText asciiText r.ownerUserId :=
    @NormalText.mk asciiText _ (by rw [howner]; decide +kernel) (by rw [howner]; decide)
  refine ⟨hnormal, ?_⟩
  rw [hname]
  decide +kernel

end Samples

end HardyAI.Lists
