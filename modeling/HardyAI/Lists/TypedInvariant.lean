import HardyAI.Lists.Backends

/-! What the typed operations keep true of the tables: each item belongs to a list and to a
recorded operation, and the items of an addition stay in the order they were added in. -/

open Foundation Foundation.Json Foundation.Trace

namespace HardyAI.Lists

section Kept

/-- The columns of an item that no typed operation changes. -/
def ListItem.core (i : ListItem) : Str × Str × Option Str := (i.itemId, i.listId, i.operationId)

/-- The columns of a list that no typed operation changes. -/
def ListRow.core (l : ListRow) : Str × Str × Str :=
  (l.listId, l.ownerUserId, l.listNameNormalized)

/-- The tables after a mutation of one list: fewer items, and all the lists or all but that one,
whose items are gone. -/
structure Kept (listId : Str) (db db' : ListDb) : Prop where
  items : (db'.items.rows.map ListItem.core).Sublist (db.items.rows.map ListItem.core)
  operations : db'.operations = db.operations
  lists : db'.lists.rows.map ListRow.core = db.lists.rows.map ListRow.core ∨
    ((db'.lists.rows.map ListRow.core).Sublist (db.lists.rows.map ListRow.core) ∧
      (∀ L, L ≠ listId → db'.lists.find? L = db.lists.find? L) ∧
      ∀ i ∈ db'.items.rows, i.listId ≠ listId)

variable {db db' : ListDb} {listId ts : Str} {o : Outcome}

theorem core_updateKey (k : Str) {f : Table.Assignment ListItem.itemId}
    (h : ∀ i, (f.apply i).core = i.core) (items : Table ListItem.itemId) :
    (items.updateKey k (fun _ => true) f).2.rows.map ListItem.core =
      items.rows.map ListItem.core := by
  rw [Table.updateKey]
  exact Table.map_update_of_eq items h

theorem core_renumber (remaining : List ListItem) (items : Table ListItem.itemId) :
    (renumber remaining items).rows.map ListItem.core = items.rows.map ListItem.core := by
  unfold renumber
  generalize remaining.zipIdx 1 = places
  induction places generalizing items with
  | nil => rfl
  | cons place places ih =>
    rw [List.foldl_cons, ih]
    exact core_updateKey _ (fun _ => rfl) items

theorem core_touchList : ((db.touchList listId ts).lists.rows.map ListRow.core) =
    db.lists.rows.map ListRow.core := by
  rw [ListDb.touchList, Table.updateKey]
  exact Table.map_update_of_eq db.lists fun _ => rfl

theorem Kept.touch (h : Kept listId db db') : Kept listId db (db'.touchList listId ts) := by
  refine ⟨h.items, h.operations, ?_⟩
  rw [core_touchList]
  rcases h.lists with hsame | ⟨hsub, hothers, hgone⟩
  · exact .inl hsame
  · refine .inr ⟨hsub, fun L hL => ?_, hgone⟩
    rw [ListDb.touchList, Table.find?_updateKey, ← hothers L hL]
    simp [hL]

/-- A list that is left was there before. -/
theorem Kept.list (h : Kept listId db db') {l : ListRow} (hl : l ∈ db'.lists.rows) :
    ∃ l' ∈ db.lists.rows, l'.core = l.core := by
  have hsub : (db'.lists.rows.map ListRow.core).Sublist (db.lists.rows.map ListRow.core) := by
    rcases h.lists with hsame | ⟨hsub, -⟩
    · rw [hsame]
    · exact hsub
  obtain ⟨l', hl', hsame⟩ := List.mem_map.1 (hsub.subset (List.mem_map_of_mem hl))
  exact ⟨l', hl', hsame⟩

variable [PythonText] {r : MutateRequest} {rows : List ListItem}
  {result : Str → OperationResult} {changed : Bool}

theorem apply_kept {m : Mutation} (h : m.apply r rows db = .ok (db', result, changed)) :
    Kept (strip r.listId) db db' := by
  cases m with
  | updateItem =>
    have hupdate : r.updateItem rows db = .ok (db', result, changed) := h
    unfold MutateRequest.updateItem at hupdate
    split at hupdate
    · simp only [bind_eq_ok] at hupdate
      obtain ⟨-, -, name, -, hupdate⟩ := hupdate
      split at hupdate
      · cases hupdate
        refine ⟨?_, rfl, .inl rfl⟩
        rw [core_updateKey]
        exact fun _ => rfl
      · cases hupdate
        exact ⟨List.Sublist.refl _, rfl, .inl rfl⟩
    · cases hupdate
  | removeItems =>
    have hremove : r.removeItems rows db = .ok (db', result, changed) := h
    simp only [MutateRequest.removeItems, bind_eq_ok] at hremove
    obtain ⟨-, -, hremove⟩ := hremove
    cases hremove
    refine ⟨?_, rfl, .inl rfl⟩
    rw [core_renumber]
    exact List.filter_sublist.map _
  | clearCollection =>
    cases h
    exact ⟨List.filter_sublist.map _, rfl, .inl rfl⟩
  | deleteCollection =>
    cases h
    refine ⟨List.filter_sublist.map _, rfl, .inr ⟨List.filter_sublist.map _, fun L hL => ?_, ?_⟩⟩
    · rw [Table.find?_delete]
      cases hfind : db.lists.find? L with
      | none => rfl
      | some l =>
        have hne : l.listId ≠ strip r.listId := Table.key_of_find? hfind ▸ hL
        simp [Option.filter_some, hne]
    · intro i hi
      simpa using (List.mem_filter.1 hi).2

/-- A mutation that is carried out, and its record. -/
theorem mutate_kept (hop : db.operations.find? r.operationId = none)
    (h : mutateListWithOperation r db = .ok (o, db')) :
    ∃ mutated op, Kept (strip r.listId) db mutated ∧ db'.items = mutated.items ∧
      db'.lists = mutated.lists ∧ db.operations.insert? op = some db'.operations ∧
      op.targetRef = strip r.listId ∧ op.action ≠ .addItems ∧
      (db.owned op.ownerUserId (strip r.listId)).isSome = true := by
  unfold mutateListWithOperation at h
  split at h
  · cases h
  · next m hmutation =>
    rw [mutateList, recorded_of_none hop] at h
    simp only [bind_eq_ok] at h
    obtain ⟨_, hnone, h⟩ := h
    cases hnone
    dsimp only at h
    split at h
    · cases h
    · next row howned =>
      simp only [bind_eq_ok] at h
      obtain ⟨-, -, -, -, rows, hrows, ⟨mutated, result, changed⟩, happly, db₁, hrecord, h⟩ := h
      cases h
      have hkept : Kept (strip r.listId) db
          (if (changed && decide (m ≠ .deleteCollection)) = true then
            mutated.touchList (strip r.listId) r.timestamp else mutated) := by
        split
        · exact (apply_kept happly).touch
        · exact apply_kept happly
      obtain ⟨operations, hinsert, rfl⟩ := record_eq_ok.1 hrecord
      rw [hkept.operations] at hinsert
      refine ⟨_, _, hkept, rfl, rfl, hinsert, rfl, (fun h => by cases h), ?_⟩
      rw [howned]
      rfl

end Kept

section Sound

/-- The record of an addition: its items were all added to its list, in this order. -/
structure AddedOp (used : List Str) (db : ListDb) (op : ListOperation) : Prop where
  result : ∃ existing ids, op.result = .added existing ids op.targetRef ∧ ids.Nodup ∧
    (∀ id ∈ ids, id ∈ used) ∧
    ((db.items.rows.map ListItem.itemId).filter fun id => ids.contains id).Sublist ids ∧
    ∀ i ∈ db.items.rows, i.itemId ∈ ids → i.listId = op.targetRef

/-- What holds of the tables after typed operations that have generated the identifiers
`used`. -/
structure Sound (used : List Str) (db : ListDb) : Prop where
  counted : ∀ L, db.Counted L
  referenced : ∀ i ∈ db.items.rows, (db.lists.find? i.listId).isSome = true
  listIds : ∀ l ∈ db.lists.rows, l.listId ∈ used
  itemIds : ∀ i ∈ db.items.rows, i.itemId ∈ used
  itemOps : ∀ i ∈ db.items.rows, ∃ op k, i.operationId = some (op ++ text ":" ++ natText k) ∧
    (db.operations.find? op).isSome = true
  targets : ∀ op ∈ db.operations.rows, op.targetRef ∈ used
  owners : ∀ op ∈ db.operations.rows, ∀ l, db.lists.find? op.targetRef = some l →
    l.ownerUserId = op.ownerUserId
  added : ∀ op ∈ db.operations.rows, op.action = .addItems → AddedOp used db op

variable {used used' : List Str} {db db' : ListDb} {o : Outcome} {listId : Str}

theorem sound_empty : Sound [] ∅ where
  counted _ := rfl
  referenced _ hi := absurd hi List.not_mem_nil
  listIds _ hl := absurd hl List.not_mem_nil
  itemIds _ hi := absurd hi List.not_mem_nil
  itemOps _ hi := absurd hi List.not_mem_nil
  targets _ hop := absurd hop List.not_mem_nil
  owners _ hop := absurd hop List.not_mem_nil
  added _ hop := absurd hop List.not_mem_nil

theorem AddedOp.of_items {op : ListOperation} (h : AddedOp used db op)
    (hused : used ⊆ used')
    (hcore : (db'.items.rows.map ListItem.core).Sublist (db.items.rows.map ListItem.core)) :
    AddedOp used' db' op := by
  obtain ⟨existing, ids, hresult, hnodup, hids, hsub, hlist⟩ := h.result
  have hitemIds : (db'.items.rows.map ListItem.itemId).Sublist
      (db.items.rows.map ListItem.itemId) := by
    have hmap := hcore.map Prod.fst
    rwa [List.map_map, List.map_map] at hmap
  refine ⟨existing, ids, hresult, hnodup, fun id hid => hused (hids id hid),
    (hitemIds.filter _).trans hsub, fun i hi hid => ?_⟩
  obtain ⟨j, hj, hsame⟩ := List.mem_map.1 (hcore.subset (List.mem_map_of_mem hi))
  have hkey : j.itemId = i.itemId := congrArg Prod.fst hsame
  have hlistId : j.listId = i.listId := congrArg (fun c => c.2.1) hsame
  exact hlistId ▸ hlist j hj (hkey ▸ hid)

/-- A mutation keeps the tables sound. -/
theorem Sound.of_kept (h : Sound used db) (hkept : Kept listId db db')
    (hcounted : ∀ L, db'.Counted L) : Sound used db' := by
  have hitem : ∀ i ∈ db'.items.rows, ∃ j ∈ db.items.rows, j.core = i.core := by
    intro i hi
    obtain ⟨j, hj, hsame⟩ := List.mem_map.1 (hkept.items.subset (List.mem_map_of_mem hi))
    exact ⟨j, hj, hsame⟩
  have hlist : ∀ l ∈ db'.lists.rows, ∃ l' ∈ db.lists.rows, l'.core = l.core :=
    fun l hl => hkept.list hl
  have hfound : ∀ L l, db'.lists.find? L = some l →
      ∃ l', db.lists.find? L = some l' ∧ l'.ownerUserId = l.ownerUserId := by
    intro L l hfind
    obtain ⟨l', hl', hsame⟩ := hlist l (Table.mem_of_find? hfind)
    have hid : l'.listId = l.listId := congrArg Prod.fst hsame
    have hkey : l'.listId = L := hid.trans (Table.key_of_find? hfind)
    exact ⟨l', Table.find?_eq_some.2 ⟨hl', hkey⟩, congrArg (fun c => c.2.1) hsame⟩
  refine ⟨hcounted, fun i hi => ?_, fun l hl => ?_, fun i hi => ?_, fun i hi => ?_,
    fun op hop => ?_, fun op hop l hfind => ?_, fun op hop haction => ?_⟩
  · obtain ⟨j, hj, hsame⟩ := hitem i hi
    have hlistId : j.listId = i.listId := congrArg (fun c => c.2.1) hsame
    have hold := h.referenced j hj
    rw [hlistId] at hold
    rcases hkept.lists with hcore | ⟨-, hothers, hgone⟩
    · obtain ⟨l, hl⟩ := Option.isSome_iff_exists.1 hold
      have hmem : l.core ∈ db'.lists.rows.map ListRow.core :=
        hcore ▸ List.mem_map_of_mem (Table.mem_of_find? hl)
      obtain ⟨l', hl', hsame'⟩ := List.mem_map.1 hmem
      have hid : l'.listId = l.listId := congrArg Prod.fst hsame'
      have hkey : l'.listId = i.listId := hid.trans (Table.key_of_find? hl)
      rw [Table.find?_eq_some.2 ⟨hl', hkey⟩]
      rfl
    · rw [hothers _ (hgone i hi)]
      exact hold
  · obtain ⟨l', hl', hsame⟩ := hlist l hl
    have hkey : l'.listId = l.listId := congrArg Prod.fst hsame
    exact hkey ▸ h.listIds l' hl'
  · obtain ⟨j, hj, hsame⟩ := hitem i hi
    have hkey : j.itemId = i.itemId := congrArg Prod.fst hsame
    exact hkey ▸ h.itemIds j hj
  · obtain ⟨j, hj, hsame⟩ := hitem i hi
    have hoperation : j.operationId = i.operationId := congrArg (fun c => c.2.2) hsame
    obtain ⟨op, k, hop, hfind⟩ := h.itemOps j hj
    exact ⟨op, k, hoperation ▸ hop, by rw [hkept.operations]; exact hfind⟩
  · exact h.targets op (hkept.operations ▸ hop)
  · obtain ⟨l', hfind', howner⟩ := hfound _ l hfind
    exact howner ▸ h.owners op (hkept.operations ▸ hop) l' hfind'
  · exact (h.added op (hkept.operations ▸ hop) haction).of_items (List.Subset.refl used) hkept.items

theorem Sound.mono (h : Sound used db) (hused : used ⊆ used') : Sound used' db where
  counted := h.counted
  referenced := h.referenced
  listIds l hl := hused (h.listIds l hl)
  itemIds i hi := hused (h.itemIds i hi)
  itemOps := h.itemOps
  targets op hop := hused (h.targets op hop)
  owners := h.owners
  added op hop haction := (h.added op hop haction).of_items hused (List.Sublist.refl _)

/-- The tables after an operation that adds rows with new identifiers, and its record. -/
structure Grown (used used' : List Str) (op : ListOperation) (added : List ListItem)
    (created : List ListRow) (db db' : ListDb) : Prop where
  subset : used ⊆ used'
  items : db'.items.rows = db.items.rows ++ added
  lists : db'.lists.rows.map ListRow.core = db.lists.rows.map ListRow.core ++
    created.map ListRow.core
  operations : db.operations.insert? op = some db'.operations
  addedItems : ∀ i ∈ added, i.itemId ∈ used' ∧ i.itemId ∉ used ∧
    (db.lists.find? i.listId).isSome = true ∧
    ∃ k, i.operationId = some (op.operationId ++ text ":" ++ natText k)
  createdLists : ∀ l ∈ created, l.listId ∈ used' ∧ l.listId ∉ used
  target : op.targetRef ∈ used'
  owner : ∀ l ∈ db'.lists.rows, l.listId = op.targetRef → l.ownerUserId = op.ownerUserId
  addedOp : op.action = .addItems → AddedOp used' db' op

/-- A list of the old tables is in the new ones. -/
theorem Grown.isSome_find? {op : ListOperation} {added : List ListItem} {created : List ListRow}
    (hgrown : Grown used used' op added created db db') {L : Str}
    (hold : (db.lists.find? L).isSome = true) : (db'.lists.find? L).isSome = true := by
  obtain ⟨l, hl⟩ := Option.isSome_iff_exists.1 hold
  have hmem : l.core ∈ db'.lists.rows.map ListRow.core := by
    rw [hgrown.lists, List.mem_append]
    exact .inl (List.mem_map_of_mem (Table.mem_of_find? hl))
  obtain ⟨l', hl', hsame⟩ := List.mem_map.1 hmem
  have hid : l'.listId = l.listId := congrArg Prod.fst hsame
  rw [Table.find?_eq_some.2 ⟨hl', hid.trans (Table.key_of_find? hl)⟩]
  rfl

theorem AddedOp.grown {op old : ListOperation} {added : List ListItem} {created : List ListRow}
    (h : AddedOp used db old) (hgrown : Grown used used' op added created db db') :
    AddedOp used' db' old := by
  obtain ⟨existing, ids, hresult, hnodup, hids, hsub, hlist⟩ := h.result
  have hnone : (added.map ListItem.itemId).filter (fun id => ids.contains id) = [] := by
    refine List.filter_eq_nil_iff.2 fun id hid => ?_
    obtain ⟨i, hi, rfl⟩ := List.mem_map.1 hid
    have hfresh : i.itemId ∉ ids := fun hmem => (hgrown.addedItems i hi).2.1 (hids _ hmem)
    simpa using hfresh
  refine ⟨existing, ids, hresult, hnodup, fun id hid => hgrown.subset (hids id hid), ?_, ?_⟩
  · rw [hgrown.items, List.map_append, List.filter_append, hnone, List.append_nil]
    exact hsub
  · intro i hi hid
    rw [hgrown.items] at hi
    rcases List.mem_append.1 hi with hi | hi
    · exact hlist i hi hid
    · exact absurd (hids _ hid) (hgrown.addedItems i hi).2.1

theorem Sound.grown (op : ListOperation) (added : List ListItem) (created : List ListRow)
    (h : Sound used db) (hgrown : Grown used used' op added created db db')
    (hcounted : ∀ L, db'.Counted L) : Sound used' db' := by
  have hlist : ∀ l ∈ db'.lists.rows, (∃ l' ∈ db.lists.rows, l'.core = l.core) ∨
      ∃ l' ∈ created, l'.core = l.core := by
    intro l hl
    have hmem : l.core ∈ db'.lists.rows.map ListRow.core := List.mem_map_of_mem hl
    rw [hgrown.lists, List.mem_append] at hmem
    rcases hmem with hmem | hmem
    · exact .inl (List.mem_map.1 hmem)
    · exact .inr (List.mem_map.1 hmem)
  have hop : ∀ old ∈ db'.operations.rows, old ∈ db.operations.rows ∨ old = op := by
    intro old hold
    exact (Table.mem_insert? hgrown.operations).1 hold
  have hrecorded : ∀ id, (db.operations.find? id).isSome = true →
      (db'.operations.find? id).isSome = true := by
    intro id hid
    rw [Table.find?_insert? hgrown.operations]
    split
    · rfl
    · exact hid
  refine ⟨hcounted, fun i hi => ?_, fun l hl => ?_, fun i hi => ?_, fun i hi => ?_,
    fun old hold => ?_, fun old hold l hfind => ?_, fun old hold haction => ?_⟩
  · rw [hgrown.items] at hi
    rcases List.mem_append.1 hi with hi | hi
    · exact hgrown.isSome_find? (h.referenced i hi)
    · exact hgrown.isSome_find? (hgrown.addedItems i hi).2.2.1
  · rcases hlist l hl with ⟨l', hl', hsame⟩ | ⟨l', hl', hsame⟩
    · have hid : l'.listId = l.listId := congrArg Prod.fst hsame
      exact hgrown.subset (hid ▸ h.listIds l' hl')
    · have hid : l'.listId = l.listId := congrArg Prod.fst hsame
      exact hid ▸ (hgrown.createdLists l' hl').1
  · rw [hgrown.items] at hi
    rcases List.mem_append.1 hi with hi | hi
    · exact hgrown.subset (h.itemIds i hi)
    · exact (hgrown.addedItems i hi).1
  · rw [hgrown.items] at hi
    rcases List.mem_append.1 hi with hi | hi
    · obtain ⟨id, k, hid, hfind⟩ := h.itemOps i hi
      exact ⟨id, k, hid, hrecorded id hfind⟩
    · obtain ⟨k, hk⟩ := (hgrown.addedItems i hi).2.2.2
      refine ⟨op.operationId, k, hk, ?_⟩
      rw [Table.find?_insert? hgrown.operations, if_pos rfl]
      rfl
  · rcases hop old hold with hold | rfl
    · exact hgrown.subset (h.targets old hold)
    · exact hgrown.target
  · rcases hop old hold with hold | rfl
    · rcases hlist l (Table.mem_of_find? hfind) with ⟨l', hl', hsame⟩ | ⟨l', hl', hsame⟩
      · have hid : l'.listId = l.listId := congrArg Prod.fst hsame
        have howner : l'.ownerUserId = l.ownerUserId := congrArg (fun c => c.2.1) hsame
        exact howner ▸ h.owners old hold l'
          (Table.find?_eq_some.2 ⟨hl', hid.trans (Table.key_of_find? hfind)⟩)
      · have hid : l'.listId = l.listId := congrArg Prod.fst hsame
        have hold' := h.targets old hold
        rw [← Table.key_of_find? hfind, ← hid] at hold'
        exact absurd hold' (hgrown.createdLists l' hl').2
    · exact hgrown.owner l (Table.mem_of_find? hfind) (Table.key_of_find? hfind)
  · rcases hop old hold with hold | rfl
    · exact (h.added old hold haction).grown hgrown
    · exact hgrown.addedOp haction

end Sound

section Runs

variable [PythonText] {used : List Str} {db db' : ListDb} {o : Outcome}

omit [PythonText] in
/-- The list of a creation: an old row, or the new one at the end. -/
theorem findOrInsert_cases {new row : ListRow} {created : Bool}
    (h : db.findOrInsert new = .ok (row, created, db')) :
    (created = false ∧ db.named new.ownerUserId new.listNameNormalized = some row ∧ db' = db) ∨
      (created = true ∧ row = new ∧ db.named new.ownerUserId new.listNameNormalized = none ∧
        ∃ lists, db.lists.insert? new = some lists ∧ db' = { db with lists }) := by
  unfold ListDb.findOrInsert at h
  split at h
  · next l hnamed =>
    cases h
    exact .inl ⟨rfl, hnamed, rfl⟩
  · next hnamed =>
    split at h
    · cases h
    · next lists hinsert =>
      cases h
      exact .inr ⟨rfl, rfl, hnamed, lists, (Table.insertApart?_eq_some.1 hinsert).2, rfl⟩

omit [PythonText] in
theorem named_eq_some {owner name : Str} {l : ListRow} (h : db.named owner name = some l) :
    l ∈ db.lists.rows ∧ l.ownerUserId = owner ∧ l.listNameNormalized = name := by
  have hfound := List.find?_some h
  simp only [Bool.and_eq_true, decide_eq_true_eq] at hfound
  exact ⟨List.mem_of_find?_eq_some h, hfound⟩

theorem Sound.create {freshId : Str} {r : CreateRequest} (hsound : Sound used db)
    (hfresh : freshId ∉ used) (hop : db.operations.find? r.operationId = none)
    (h : createListWithOperation freshId r db = .ok (o, db')) :
    Sound (used ++ [freshId]) db' := by
  have hcounted : ∀ L, db'.Counted L := fun L =>
    counted_of_items (congrFun (itemsOf_congr (create_counted h)) L) (hsound.counted L)
  rw [createListWithOperation, recorded_of_none hop] at h
  simp only [bind_eq_ok] at h
  obtain ⟨_, hnone, h⟩ := h
  cases hnone
  simp only [bind_eq_ok] at h
  obtain ⟨⟨row, created, inserted⟩, hinserted, db₁, hrecord, h⟩ := h
  cases h
  obtain ⟨operations, hinsert, rfl⟩ := record_eq_ok.1 hrecord
  rcases findOrInsert_cases hinserted with ⟨rfl, hnamed, rfl⟩ | ⟨rfl, rfl, hnamed, lists, hlists, rfl⟩
  · obtain ⟨hmem, howner, -⟩ := named_eq_some hnamed
    refine hsound.grown _ [] [] ⟨List.subset_append_left _ _,
      (List.append_nil _).symm, (List.append_nil _).symm, hinsert, ?_, ?_,
      List.subset_append_left _ _ (hsound.listIds row hmem), ?_, fun h => by cases h⟩ hcounted
    · exact fun _ hi => absurd hi List.not_mem_nil
    · exact fun _ hl => absurd hl List.not_mem_nil
    · intro l hl hid
      rw [inserted.lists.key_injective hl hmem hid]
      exact howner
  · have hrows := (Table.insert?_eq_some hlists).2
    have hnew : freshId ∈ used ++ [freshId] := List.mem_append_right _ (List.mem_singleton_self _)
    refine hsound.grown _ [] [r.row freshId] ⟨List.subset_append_left _ _,
      (List.append_nil _).symm, ?_, hinsert, ?_, ?_, hnew, ?_, fun h => by cases h⟩ hcounted
    · rw [hrows, List.map_append]
    · exact fun _ hi => absurd hi List.not_mem_nil
    · intro l hl
      obtain rfl := List.mem_singleton.1 hl
      exact ⟨hnew, hfresh⟩
    · intro l hl hid
      have hmem : r.row freshId ∈ lists.rows := hrows ▸ List.mem_append_right _
        (List.mem_singleton_self _)
      rw [lists.key_injective hl hmem hid]
      rfl

omit [PythonText] in
/-- The items of an addition, with the identifiers that are generated for them. -/
theorem itemIds_added {fresh : Nat → Str} {r : AddRequest} {next : Int} :
    (r.itemNames.zipIdx.map fun p => r.item fresh next p.2 p.1).map ListItem.itemId =
      (List.range r.itemNames.length).map fresh := by
  have hid : (ListItem.itemId ∘ fun p : Str × Nat => r.item fresh next p.2 p.1) =
      fresh ∘ Prod.snd := rfl
  rw [List.map_map, hid, ← List.map_map, List.zipIdx_map_snd, List.range_eq_range']

theorem Sound.add {fresh : Nat → Str} {r : AddRequest} (hsound : Sound used db)
    (hfresh : ∀ id ∈ (List.range r.itemNames.length).map fresh, id ∉ used)
    (hnodup : ((List.range r.itemNames.length).map fresh).Nodup)
    (hop : db.operations.find? r.operationId = none)
    (h : addListItemsWithOperation fresh r db = .ok (o, db')) :
    Sound (used ++ (List.range r.itemNames.length).map fresh) db' := by
  have hcounted := add_counted hsound.counted h
  rw [addListItemsWithOperation, recorded_of_none hop] at h
  simp only [bind_eq_ok] at h
  obtain ⟨_, hnone, h⟩ := h
  cases hnone
  simp only [bind_eq_ok, require_eq_ok] at h
  obtain ⟨-, howned, inserted, hinserted, db₁, hrecord, h⟩ := h
  cases h
  have hrows := rows_foldlM_insertItem hinserted
  obtain ⟨operations, hinsert, rfl⟩ := record_eq_ok.1 hrecord
  obtain ⟨row, howned⟩ := Option.isSome_iff_exists.1 howned
  obtain ⟨hfind, howner⟩ := owned_eq_some.1 howned
  have hids := @itemIds_added fresh r (maxPosition (db.itemsOf (strip r.listId)) + 1)
  have hlist : ∀ i ∈ r.itemNames.zipIdx.map (fun p =>
      r.item fresh (maxPosition (db.itemsOf (strip r.listId)) + 1) p.2 p.1),
      i.listId = strip r.listId := by
    intro i hi
    obtain ⟨p, -, rfl⟩ := List.mem_map.1 hi
    rfl
  obtain ⟨hlists, hoperations, -⟩ := foldlM_insertItem hlist hinserted
  rw [show (inserted.touchList (strip r.listId) r.timestamp).operations = db.operations from
    hoperations] at hinsert
  refine hsound.grown _ _ [] ⟨List.subset_append_left _ _, hrows, ?_, hinsert, ?_, ?_,
    ?_, ?_, fun _ => ?_⟩ hcounted
  · rw [List.map_nil, List.append_nil, ← hlists]
    exact core_touchList
  · intro i hi
    have hmem : i.itemId ∈ (List.range r.itemNames.length).map fresh :=
      hids ▸ List.mem_map_of_mem hi
    refine ⟨List.mem_append_right _ hmem, hfresh _ hmem, ?_, ?_⟩
    · rw [hlist i hi, hfind]
      rfl
    · obtain ⟨p, -, rfl⟩ := List.mem_map.1 hi
      exact ⟨p.2 + 1, rfl⟩
  · exact fun _ hl => absurd hl List.not_mem_nil
  · have hused := hsound.listIds row (Table.mem_of_find? hfind)
    rw [Table.key_of_find? hfind] at hused
    exact List.mem_append_left _ hused
  · intro l hl hid
    have hcore : l.core ∈ db.lists.rows.map ListRow.core := by
      rw [← hlists, ← @core_touchList inserted (strip r.listId) r.timestamp]
      exact List.mem_map_of_mem hl
    obtain ⟨l', hl', hsame⟩ := List.mem_map.1 hcore
    have hkey : l'.listId = l.listId := congrArg Prod.fst hsame
    have hrow : l' = row := db.lists.key_injective hl' (Table.mem_of_find? hfind)
      ((hkey.trans hid).trans (Table.key_of_find? hfind).symm)
    have howner' : l'.ownerUserId = l.ownerUserId := congrArg (fun c => c.2.1) hsame
    exact howner'.symm.trans (hrow ▸ howner)
  refine ⟨_, _, rfl, ?_, ?_, ?_, ?_⟩
  · rw [hids]
    exact hnodup
  · intro id hid
    exact List.mem_append_right _ (hids ▸ hid)
  · have hold : (db.items.rows.map ListItem.itemId).filter (fun id =>
        ((List.range r.itemNames.length).map fresh).contains id) = [] := by
      refine List.filter_eq_nil_iff.2 fun id hid => ?_
      obtain ⟨i, hi, rfl⟩ := List.mem_map.1 hid
      have hfresh' : i.itemId ∉ (List.range r.itemNames.length).map fresh :=
        fun hmem => hfresh _ hmem (hsound.itemIds i hi)
      simpa using hfresh'
    rw [hids]
    show ((inserted.items.rows.map ListItem.itemId).filter _).Sublist _
    rw [hrows, List.map_append, List.filter_append, hold, List.nil_append, hids]
    exact List.filter_sublist
  · intro i hi hid
    rw [hids] at hid
    have hi' : i ∈ inserted.items.rows := hi
    rw [hrows] at hi'
    rcases List.mem_append.1 hi' with hi | hi
    · exact absurd (hsound.itemIds i hi) (hfresh _ hid)
    · exact hlist i hi

theorem Sound.mutate {r : MutateRequest} (hsound : Sound used db)
    (hop : db.operations.find? r.operationId = none)
    (h : mutateListWithOperation r db = .ok (o, db')) : Sound used db' := by
  have hcounted := mutate_counted hsound.counted h
  obtain ⟨mutated, op, hkept, hitems, hlists, hinsert, htarget, haction, howned⟩ :=
    mutate_kept hop h
  have hmutated : Sound used mutated := hsound.of_kept hkept fun L =>
    counted_of_items (congrFun (itemsOf_congr hitems.symm) L) (hcounted L)
  obtain ⟨row, hrow⟩ := Option.isSome_iff_exists.1 howned
  obtain ⟨hfind, howner⟩ := owned_eq_some.1 hrow
  refine hmutated.grown op [] [] ⟨List.Subset.refl _, ?_, ?_, ?_,
    ?_, ?_, ?_, ?_, fun hadd => absurd hadd haction⟩ hcounted
  · rw [hitems, List.append_nil]
  · rw [hlists, List.map_nil, List.append_nil]
  · rw [hkept.operations]
    exact hinsert
  · exact fun _ hi => absurd hi List.not_mem_nil
  · exact fun _ hl => absurd hl List.not_mem_nil
  · rw [htarget, ← Table.key_of_find? hfind]
    exact hsound.listIds row (Table.mem_of_find? hfind)
  · intro l hl hid
    rw [hlists] at hl
    obtain ⟨l', hl', hsame⟩ := hkept.list hl
    have hkey : l'.listId = l.listId := congrArg Prod.fst hsame
    have hrow' : l' = row := db.lists.key_injective hl' (Table.mem_of_find? hfind)
      ((hkey.trans (hid.trans htarget)).trans (Table.key_of_find? hfind).symm)
    have howner' : l'.ownerUserId = l.ownerUserId := congrArg (fun c => c.2.1) hsame
    exact howner'.symm.trans (hrow' ▸ howner)

/-- Every typed operation keeps the tables sound, where what it generates is new. -/
theorem Sound.run {c : TypedCall} (hsound : Sound used db) (hfresh : ∀ id ∈ c.generated, id ∉ used)
    (hnodup : c.generated.Nodup) : Sound (used ++ c.generated) (c.run.commit db) := by
  have hmono : Sound (used ++ c.generated) db := hsound.mono (List.subset_append_left _ _)
  cases hop : db.operations.find? c.operationId with
  | some op =>
    obtain ⟨hsame, hother⟩ := run_recorded hop
    by_cases hid : op.identity = c.identity
    · have hcommit : c.run.commit db = db := by
        refine Transaction.commit_of_forall (P := fun db' : ListDb => db' = db) rfl fun o db' h => ?_
        rw [hsame hid, map_eq_ok] at h
        obtain ⟨_, -, h⟩ := h
        cases h
        rfl
      rwa [hcommit]
    · obtain ⟨e, he⟩ := hother hid
      rwa [Transaction.commit_of_error he]
  | none =>
    refine Transaction.commit_of_forall (P := fun db' : ListDb => Sound (used ++ c.generated) db')
      hmono fun o db' h => ?_
    cases c with
    | create freshId r => exact hsound.create (hfresh freshId (List.mem_singleton_self _)) hop h
    | add fresh r => exact hsound.add hfresh hnodup hop h
    | mutate r => exact (hsound.mutate hop h).mono (List.subset_append_left _ _)

end Runs

end HardyAI.Lists
