import HardyAI.Lists.Calls

/-! The `updated_at` of a list as the version of its items: which calls move it with the items,
and what a mutation that expects a version finds. -/

open Foundation Foundation.Json Foundation.Trace

namespace HardyAI.Lists

section Contents

/-- The text and the check of each item of a list. -/
def ListDb.contents (db : ListDb) (listId itemId : Str) : Option (Str × Bool) :=
  (db.itemIn listId itemId).map fun i => (i.itemName, i.checked)

def ListDb.version (db : ListDb) (listId : Str) : Option Str :=
  (db.lists.find? listId).map ListRow.updatedAt

variable {db db' db'' : ListDb} {listId other itemId ts : Str} {i : ListItem} {l : ListRow}

theorem itemIn_eq_some :
    db.itemIn listId itemId = some i ↔ db.items.find? itemId = some i ∧ i.listId = listId := by
  simp [ListDb.itemIn, Option.filter_eq_some_iff]

theorem owned_eq_some {owner : Str} :
    db.owned owner listId = some l ↔ db.lists.find? listId = some l ∧ l.ownerUserId = owner := by
  simp [ListDb.owned, Option.filter_eq_some_iff]

theorem contents_congr (h : db'.items = db.items) : db'.contents = db.contents := by
  funext L id
  simp [ListDb.contents, ListDb.itemIn, h]

theorem version_congr (h : db'.lists = db.lists) : db'.version = db.version := by
  funext L
  simp [ListDb.version, h]

@[simp] theorem contents_touchList : (db.touchList listId ts).contents = db.contents :=
  contents_congr rfl

theorem version_touchList (L : Str) : (db.touchList listId ts).version L =
    if L = listId then (db.version L).map fun _ => ts else db.version L := by
  rw [ListDb.version, ListDb.touchList, Table.find?_updateKey, Option.map_map]
  cases hfind : db.lists.find? L with
  | none => simp [ListDb.version, hfind]
  | some l =>
    by_cases hL : L = listId
    · subst hL
      simp [ListDb.version, hfind, touch]
    · simp [ListDb.version, hfind, hL]

theorem record_eq_ok {op : ListOperation} : db.record op = .ok db' ↔
    ∃ operations, db.operations.insert? op = some operations ∧
      db' = { db with operations } := by
  unfold ListDb.record
  cases db.operations.insert? op with
  | none => simp
  | some operations => simp [eq_comm]

theorem insertItem_eq_ok : db.insertItem i = .ok db' ↔
    ∃ items, db.items.insertApart? i.clash i = some items ∧
      (db.lists.find? i.listId).isSome = true ∧ db' = { db with items } := by
  unfold ListDb.insertItem
  cases db.items.insertApart? i.clash i with
  | none => simp
  | some items =>
    simp only [bind_eq_ok, require_eq_ok, Except.ok.injEq, Option.some.injEq, exists_eq_left']
    constructor
    · rintro ⟨-, hlist, rfl⟩
      exact ⟨hlist, rfl⟩
    · rintro ⟨hlist, rfl⟩
      exact ⟨(), hlist, rfl⟩

theorem find?_insertItem (h : db.insertItem i = .ok db') :
    db.items.find? i.itemId = none ∧
      ∀ id, db'.items.find? id = if i.itemId = id then some i else db.items.find? id := by
  obtain ⟨items, hinsert, -, rfl⟩ := insertItem_eq_ok.1 h
  obtain ⟨-, hnew⟩ := Table.insertApart?_eq_some.1 hinsert
  exact ⟨(Table.insert?_eq_some hnew).1, Table.find?_insert? hnew⟩

/-- An insertion changes the contents of one list only. -/
theorem contents_insertItem (h : db.insertItem i = .ok db') (hother : other ≠ i.listId) :
    db'.contents other = db.contents other := by
  obtain ⟨hfresh, hfind⟩ := find?_insertItem h
  funext id
  rw [ListDb.contents, ListDb.itemIn, hfind, ListDb.contents, ListDb.itemIn]
  split
  · next hid =>
    rw [← hid, hfresh]
    simp [hother.symm]
  · rfl

theorem lists_insertItem (h : db.insertItem i = .ok db') : db'.lists = db.lists := by
  obtain ⟨items, -, -, rfl⟩ := insertItem_eq_ok.1 h
  rfl

/-- The insertions of one list leave the lists and the contents of the others. -/
theorem foldlM_insertItem {added : List ListItem} (hadded : ∀ i ∈ added, i.listId = listId)
    (h : added.foldlM ListDb.insertItem db = .ok db') :
    db'.lists = db.lists ∧ db'.operations = db.operations ∧
      ∀ L, L ≠ listId → db'.contents L = db.contents L := by
  induction added generalizing db with
  | nil =>
    obtain rfl : db = db' := by simpa [Pure.pure, Except.pure] using h
    exact ⟨rfl, rfl, fun _ _ => rfl⟩
  | cons i added ih =>
    rw [List.foldlM_cons, bind_eq_ok] at h
    obtain ⟨db₁, hfirst, hrest⟩ := h
    obtain ⟨hlists, hoperations, hcontents⟩ :=
      ih (fun j hj => hadded j (List.mem_cons_of_mem _ hj)) hrest
    have hlistId : i.listId = listId := hadded i List.mem_cons_self
    have hoperation : db₁.operations = db.operations := by
      obtain ⟨items, -, -, rfl⟩ := insertItem_eq_ok.1 hfirst
      rfl
    refine ⟨hlists.trans (lists_insertItem hfirst), hoperations.trans hoperation, ?_⟩
    intro L hL
    rw [hcontents L hL, contents_insertItem hfirst (hlistId ▸ hL)]

theorem contents_delete (g : ListItem → Bool) (L id : Str) :
    { db with items := db.items.delete g }.contents L id =
      ((db.itemIn L id).filter fun i => !g i).map fun i => (i.itemName, i.checked) := by
  rw [ListDb.contents, ListDb.itemIn, Table.find?_delete, ListDb.itemIn, Option.filter_filter,
    Option.filter_filter]
  simp only [Bool.and_comm]

/-- A deletion that spares the items of a list leaves its contents. -/
theorem contents_delete_of_forall {g : ListItem → Bool} {L : Str}
    (h : ∀ i ∈ db.items.rows, i.listId = L → g i = false) :
    { db with items := db.items.delete g }.contents L = db.contents L := by
  funext id
  rw [contents_delete, ListDb.contents]
  cases hitem : db.itemIn L id with
  | none => rfl
  | some i =>
    obtain ⟨hfind, hlist⟩ := itemIn_eq_some.1 hitem
    simp [h i (Table.mem_of_find? hfind) hlist]

theorem itemIn_updateKey {k : Str} {f : Table.Assignment ListItem.itemId}
    (hkeeps : ∀ i, (f.apply i).listId = i.listId) (L id : Str) :
    { db with items := (db.items.updateKey k (fun _ => true) f).2 }.itemIn L id =
      (db.itemIn L id).map fun i => if id = k then f.apply i else i := by
  rw [ListDb.itemIn, Table.find?_updateKey, ListDb.itemIn]
  cases db.items.find? id with
  | none => rfl
  | some i =>
    by_cases hid : id = k <;> by_cases hl : i.listId = L <;>
      simp [Option.filter_some, hid, hl, hkeeps]

/-- An update of an item of one list leaves the contents of the others. -/
theorem contents_updateKey_of_ne {k : Str} {f : Table.Assignment ListItem.itemId}
    (hkeeps : ∀ i, (f.apply i).listId = i.listId) (hitem : db.items.find? k = some i)
    (hother : other ≠ i.listId) :
    { db with items := (db.items.updateKey k (fun _ => true) f).2 }.contents other =
      db.contents other := by
  funext id
  rw [ListDb.contents, itemIn_updateKey hkeeps, ListDb.contents]
  cases hin : db.itemIn other id with
  | none => rfl
  | some j =>
    obtain ⟨hfind, hlist⟩ := itemIn_eq_some.1 hin
    by_cases hid : id = k
    · rw [hid, hitem] at hfind
      exact absurd hlist (Option.some.inj hfind ▸ hother.symm)
    · simp [hid]

theorem contents_renumber (remaining : List ListItem) :
    { db with items := renumber remaining db.items }.contents = db.contents := by
  unfold renumber
  generalize remaining.zipIdx 1 = places
  induction places generalizing db with
  | nil => rfl
  | cons place places ih =>
    rw [List.foldl_cons, @ih { db with items := (db.items.updateKey place.1.itemId
      (fun _ => true) (moveItem place.2)).2 }]
    funext L id
    have hkeeps (i : ListItem) : ((moveItem place.2).apply i).listId = i.listId := rfl
    rw [ListDb.contents, itemIn_updateKey hkeeps, ListDb.contents, Option.map_map]
    refine Option.map_congr fun i _ => ?_
    by_cases hid : id = place.1.itemId <;> simp [hid, moveItem]

end Contents

section Writes

/-- A write to one list: its items stay as they are unless its version becomes the timestamp
of the write or the list is gone. -/
structure Written (target ts : Str) (db db' : ListDb) : Prop where
  others : ∀ L, L ≠ target → db'.contents L = db.contents L ∧ db'.version L = db.version L
  target : (db'.contents target = db.contents target ∧ db'.version target = db.version target) ∨
    db'.version target = some ts ∨ db'.version target = none

variable {target ts : Str} {db db' db'' : ListDb} {o : Outcome}

theorem Written.refl (db : ListDb) : Written target ts db db :=
  ⟨fun _ _ => ⟨rfl, rfl⟩, .inl ⟨rfl, rfl⟩⟩

/-- The record of an operation adds nothing to what was written. -/
theorem Written.record {op : ListOperation} (h : Written target ts db db')
    (hrecord : db'.record op = .ok db'') : Written target ts db db'' := by
  obtain ⟨operations, -, rfl⟩ := record_eq_ok.1 hrecord
  exact ⟨h.others, h.target⟩

/-- A write that ends with the new version of a list that exists. -/
theorem Written.touch (hothers : ∀ L, L ≠ target → db'.contents L = db.contents L)
    (hlists : db'.lists = db.lists) : Written target ts db (db'.touchList target ts) := by
  have hversion : db'.version = db.version := version_congr hlists
  constructor
  · intro L hL
    rw [contents_touchList, version_touchList, if_neg hL, hversion]
    exact ⟨hothers L hL, rfl⟩
  · rw [version_touchList, if_pos rfl]
    cases db'.version target with
    | none => exact .inr (.inr rfl)
    | some v => exact .inr (.inl rfl)

variable [PythonText]

theorem create_written {freshId : Str} {r : CreateRequest}
    (h : createListWithOperation freshId r db = .ok (o, db')) :
    Written freshId r.timestamp db db' := by
  simp only [createListWithOperation, bind_eq_ok] at h
  obtain ⟨recorded, -, h⟩ := h
  cases recorded with
  | some op =>
    dsimp only at h
    split at h
    · cases h
    · cases h
      exact .refl db
  | none =>
    simp only [bind_eq_ok] at h
    obtain ⟨⟨row, created, inserted⟩, hinserted, db₁, hrecord, h⟩ := h
    cases h
    refine Written.record ?_ hrecord
    unfold ListDb.findOrInsert at hinserted
    split at hinserted
    · cases hinserted
      exact .refl db
    · split at hinserted
      · cases hinserted
      · next lists hlists =>
        cases hinserted
        obtain ⟨-, hinsert⟩ := Table.insertApart?_eq_some.1 hlists
        have hversion (L : Str) : { db with lists }.version L =
            if freshId = L then some r.timestamp else db.version L := by
          rw [ListDb.version, Table.find?_insert? hinsert]
          change Option.map _ (if freshId = L then _ else _) = _
          split
          · rfl
          · rfl
        constructor
        · intro L hL
          refine ⟨rfl, ?_⟩
          rw [hversion, if_neg hL.symm]
        · rw [hversion, if_pos rfl]
          exact .inr (.inl rfl)

theorem add_written {fresh : Nat → Str} {r : AddRequest}
    (h : addListItemsWithOperation fresh r db = .ok (o, db')) :
    Written (strip r.listId) r.timestamp db db' := by
  simp only [addListItemsWithOperation, bind_eq_ok] at h
  obtain ⟨recorded, -, h⟩ := h
  cases recorded with
  | some op =>
    simp only [bind_eq_ok] at h
    obtain ⟨rows, -, h⟩ := h
    cases h
    exact .refl db
  | none =>
    simp only [bind_eq_ok] at h
    obtain ⟨-, -, inserted, hinserted, db₁, hrecord, h⟩ := h
    cases h
    refine Written.record ?_ hrecord
    have hadded : ∀ i ∈ r.itemNames.zipIdx.map fun p =>
        r.item fresh (maxPosition (db.itemsOf (strip r.listId)) + 1) p.2 p.1,
        i.listId = strip r.listId := by
      intro i hi
      obtain ⟨p, -, rfl⟩ := List.mem_map.1 hi
      rfl
    obtain ⟨hlists, -, hothers⟩ := foldlM_insertItem hadded hinserted
    exact Written.touch hothers hlists

omit [PythonText] in
/-- The rows that a mutation reads are the items it names, each in the list. -/
theorem mapM_itemIn {listId : Str} {ids : List Str} {rows : List ListItem}
    (h : ids.mapM (fun id => match db.itemIn listId id with
      | none => Except.error (PyError.valueError "list_item_not_authorized")
      | some i => .ok i) = .ok rows) :
    rows.map ListItem.itemId = ids ∧ ∀ i ∈ rows, db.itemIn listId i.itemId = some i := by
  induction ids generalizing rows with
  | nil =>
    obtain rfl : [] = rows := by simpa [List.mapM_nil, Pure.pure, Except.pure] using h
    simp
  | cons id ids ih =>
    simp only [List.mapM_cons, bind_eq_ok, Pure.pure, Except.pure, Except.ok.injEq] at h
    obtain ⟨i, hi, rest, hrest, rfl⟩ := h
    obtain ⟨hids, hall⟩ := ih hrest
    have hitem : db.itemIn listId id = some i := by
      cases hcase : db.itemIn listId id with
      | none => simp [hcase] at hi
      | some j => simpa [hcase] using hi
    obtain rfl : i.itemId = id := Table.key_of_find? (itemIn_eq_some.1 hitem).1
    refine ⟨by rw [List.map_cons, hids], ?_⟩
    intro j hj
    rcases List.mem_cons.1 hj with rfl | hj
    · exact hitem
    · exact hall j hj

variable {r : MutateRequest} {rows : List ListItem} {result : Str → OperationResult}
  {changed : Bool}

theorem updateItem_contents (hrows : ∀ i ∈ rows, db.itemIn (strip r.listId) i.itemId = some i)
    (h : r.updateItem rows db = .ok (db', result, changed)) :
    db'.lists = db.lists ∧ (∀ L, L ≠ strip r.listId → db'.contents L = db.contents L) ∧
      (changed = false → db'.contents = db.contents) := by
  unfold MutateRequest.updateItem at h
  split at h
  · next i =>
    obtain ⟨hfind, hlist⟩ := itemIn_eq_some.1 (hrows i List.mem_cons_self)
    simp only [bind_eq_ok] at h
    obtain ⟨-, -, name, -, h⟩ := h
    split at h
    · cases h
      refine ⟨rfl, fun L hL => ?_, nofun⟩
      exact contents_updateKey_of_ne (fun _ => rfl) hfind (hlist ▸ hL)
    · cases h
      exact ⟨rfl, fun _ _ => rfl, fun _ => rfl⟩
  · cases h

omit [PythonText] in
theorem removeItems_contents (hids : rows.map ListItem.itemId = r.itemIds)
    (hrows : ∀ i ∈ rows, db.itemIn (strip r.listId) i.itemId = some i)
    (h : r.removeItems rows db = .ok (db', result, changed)) :
    db'.lists = db.lists ∧ (∀ L, L ≠ strip r.listId → db'.contents L = db.contents L) ∧
      changed = true := by
  simp only [MutateRequest.removeItems, bind_eq_ok] at h
  obtain ⟨-, -, h⟩ := h
  cases h
  refine ⟨rfl, fun L hL => ?_, rfl⟩
  rw [@contents_renumber { db with items := db.items.delete fun i => r.itemIds.contains i.itemId }]
  refine contents_delete_of_forall fun i hi hlist => ?_
  rw [← Bool.not_eq_true, List.contains_eq_mem, decide_eq_true_eq, ← hids]
  intro hmem
  obtain ⟨j, hj, hkey⟩ := List.mem_map.1 hmem
  obtain ⟨hfind, hlistId⟩ := itemIn_eq_some.1 (hrows j hj)
  have hsame : j = i := db.items.key_injective (Table.mem_of_find? hfind) hi hkey
  exact hL (hlist.symm.trans (hsame ▸ hlistId))

omit [PythonText] in
theorem deleteOf_contents {listId L : Str} (hL : L ≠ listId) :
    { db with items := db.items.delete fun i => decide (i.listId = listId) }.contents L =
      db.contents L := by
  refine contents_delete_of_forall fun i _ hlist => ?_
  simpa [hlist] using hL

omit [PythonText] in
theorem clearCollection_contents
    (h : r.clearCollection db = (db', result, changed)) :
    db'.lists = db.lists ∧ (∀ L, L ≠ strip r.listId → db'.contents L = db.contents L) ∧
      (changed = false → db'.contents = db.contents) := by
  unfold MutateRequest.clearCollection at h
  cases h
  refine ⟨rfl, fun L hL => deleteOf_contents hL, fun hnone => ?_⟩
  have hempty : db.itemsOf (strip r.listId) = [] := by
    simpa [List.length_eq_zero_iff] using hnone
  have hspared (L : Str) : ∀ i ∈ db.items.rows, i.listId = L →
      decide (i.listId = strip r.listId) = false := by
    intro i hi _
    have hnot := List.filter_eq_nil_iff.1 hempty i hi
    simpa using hnot
  funext L
  exact contents_delete_of_forall (hspared L)

theorem deleteCollection_written {l : ListRow}
    (howned : db.owned (normalized r.ownerUserId) (strip r.listId) = some l)
    (h : r.deleteCollection db = (db', result, changed)) :
    Written (strip r.listId) ts db db' := by
  unfold MutateRequest.deleteCollection at h
  cases h
  obtain ⟨hfind, howner⟩ := owned_eq_some.1 howned
  constructor
  · intro L hL
    refine ⟨deleteOf_contents hL, ?_⟩
    rw [ListDb.version, Table.find?_delete, ListDb.version]
    cases hcase : db.lists.find? L with
    | none => rfl
    | some other =>
      have hother : other.listId ≠ strip r.listId := Table.key_of_find? hcase ▸ hL
      simp [Option.filter_some, hother]
  · have hkey : l.listId = strip r.listId := Table.key_of_find? hfind
    rw [ListDb.version, Table.find?_delete, hfind]
    simp [Option.filter_some, hkey, howner]

theorem mutateList_written {m : Mutation} (h : mutateList m r db = .ok (o, db')) :
    Written (strip r.listId) r.timestamp db db' := by
  simp only [mutateList, bind_eq_ok] at h
  obtain ⟨recorded, -, h⟩ := h
  cases recorded with
  | some op =>
    cases h
    exact .refl db
  | none =>
    dsimp only at h
    split at h
    · cases h
    · next l howned =>
      simp only [bind_eq_ok] at h
      obtain ⟨-, -, -, -, rows, hrows, ⟨mutated, result, changed⟩, happly, db₁, hrecord, h⟩ := h
      cases h
      refine Written.record ?_ hrecord
      obtain ⟨hids, hall⟩ := mapM_itemIn hrows
      cases m with
      | updateItem =>
        obtain ⟨hlists, hothers, hsame⟩ := updateItem_contents hall happly
        cases changed with
        | true => exact Written.touch hothers hlists
        | false =>
          have hcontents := hsame rfl
          have hversion : mutated.version = db.version := version_congr hlists
          exact ⟨fun L _ => ⟨by rw [← hcontents]; rfl, by rw [← hversion]; rfl⟩,
            .inl ⟨by rw [← hcontents]; rfl, by rw [← hversion]; rfl⟩⟩
      | removeItems =>
        obtain ⟨hlists, hothers, rfl⟩ := removeItems_contents hids hall happly
        exact Written.touch hothers hlists
      | clearCollection =>
        obtain ⟨hlists, hothers, hsame⟩ := clearCollection_contents (Except.ok.inj happly)
        cases changed with
        | true => exact Written.touch hothers hlists
        | false =>
          have hcontents := hsame rfl
          have hversion : mutated.version = db.version := version_congr hlists
          exact ⟨fun L _ => ⟨by rw [← hcontents]; rfl, by rw [← hversion]; rfl⟩,
            .inl ⟨by rw [← hcontents]; rfl, by rw [← hversion]; rfl⟩⟩
      | deleteCollection =>
        have hwritten : Written (strip r.listId) r.timestamp db mutated :=
          deleteCollection_written howned (Except.ok.inj happly)
        simpa using hwritten

theorem mutate_written (h : mutateListWithOperation r db = .ok (o, db')) :
    Written (strip r.listId) r.timestamp db db' := by
  unfold mutateListWithOperation at h
  split at h
  · cases h
  · exact mutateList_written h

end Writes

section Guard

variable [PythonText] {s : ListStore} {L v : Str} {c : Call}

/-- A call that changes the items of a list and leaves its version as it is. -/
def Unversioned (s : ListStore) (L : Str) : Call → Prop
  | .typed _ => False
  | .addItem freshId r => strip r.listId = L ∧ ∃ i, (addListItem freshId r s).1 = .ok (i, false)
  | .deleteItem itemId updatedAt => strip itemId ≠ [] ∧ (updatedAt.getD [] = [] ∨ L = []) ∧
    ∃ i, s.db.itemIn L (strip itemId) = some i
  | .setChecked itemId checked _ => strip itemId ≠ [] ∧ L = [] ∧
    ∃ i, s.db.itemIn L (strip itemId) = some i ∧ i.checked ≠ checked
  | .deleteAll listId updatedAt => strip listId = L ∧ L ≠ [] ∧ updatedAt.getD [] = [] ∧
    ∃ id i, s.db.itemIn L id = some i

theorem typed_written (c : TypedCall) (db : ListDb) :
    ∃ target, Written target c.timestamp db (c.run.commit db) := by
  rcases hrun : c.run db with e | ⟨o, db'⟩
  · rw [Transaction.commit_of_error hrun]
    exact ⟨[], .refl db⟩
  · rw [Transaction.commit_of_ok hrun]
    cases c with
    | create freshId r => exact ⟨freshId, create_written hrun⟩
    | add fresh r => exact ⟨strip r.listId, add_written hrun⟩
    | mutate r => exact ⟨strip r.listId, mutate_written hrun⟩

omit [PythonText] in
theorem touchList?_of_ne {db : ListDb} {listId : Str} {updatedAt : Option Str}
    (h : updatedAt.getD [] ≠ []) :
    ∃ ts, updatedAt = some ts ∧ db.touchList? listId updatedAt = db.touchList listId ts := by
  cases updatedAt with
  | none => exact absurd rfl h
  | some ts => exact ⟨ts, rfl, by rw [ListDb.touchList?, if_neg h, Option.getD_some]⟩

omit [PythonText] in
theorem touchItemList_of_not {db : ListDb} {listId : Str} {updatedAt : Option Str}
    (h : ¬(listId ≠ [] ∧ updatedAt.getD [] ≠ [])) :
    (if listId = [] then db else db.touchList? listId updatedAt) = db := by
  by_cases hlist : listId = []
  · rw [if_pos hlist]
  · rw [if_neg hlist, ListDb.touchList?, if_pos]
    by_contra hupdated
    exact h ⟨hlist, hupdated⟩

omit [PythonText] in
/-- The deletion of one item leaves the contents of the lists that do not hold it. -/
theorem contents_deleteItem {db : ListDb} {i : ListItem} {target : Str}
    (hitem : db.items.find? target = some i) (hL : L ≠ i.listId) :
    { db with items := db.items.delete fun j => decide (j.itemId = target) }.contents L =
      db.contents L := by
  refine contents_delete_of_forall fun j hj hlist => ?_
  rw [decide_eq_false_iff_not]
  intro hkey
  have hfind : db.items.find? target = some j := hkey ▸ Table.find?_of_mem hj
  rw [hitem] at hfind
  exact hL (hlist.symm.trans (Option.some.inj hfind ▸ rfl))

/-- A call writes a version with the items, or leaves the lists and the items of each list
that it does not change without one. -/
theorem step_cases (s : ListStore) (c : Call) :
    (∃ target ts, c.timestamp? = some ts ∧ Written target ts s.db (step s c).db) ∨
      ((step s c).db.lists = s.db.lists ∧
        ∀ L, ¬Unversioned s L c → (step s c).db.contents L = s.db.contents L) := by
  cases c with
  | typed c =>
    refine .inl ?_
    by_cases hopen : s.inTransaction = true
    · refine ⟨[], c.timestamp, rfl, ?_⟩
      simp only [step, ListStore.transact, hopen, if_true]
      exact .refl s.db
    · obtain ⟨target, hwritten⟩ := typed_written c s.db
      refine ⟨target, c.timestamp, rfl, ?_⟩
      simpa [step, ListStore.transact, hopen] using hwritten
  | addItem freshId r =>
    refine .inr ?_
    simp only [step, Unversioned, addListItem]
    split
    · exact ⟨rfl, fun _ _ => rfl⟩
    · split
      · next db' hinsert =>
        refine ⟨lists_insertItem hinsert, fun L hnot => contents_insertItem hinsert ?_⟩
        intro hL
        exact hnot ⟨hL.symm, _, rfl⟩
      · exact ⟨rfl, fun _ _ => rfl⟩
  | deleteItem itemId updatedAt =>
    simp only [step, Unversioned, deleteListItem]
    split
    · exact .inr ⟨rfl, fun _ _ => rfl⟩
    · next hid =>
      split
      · exact .inr ⟨rfl, fun _ _ => rfl⟩
      · next i hitem =>
        have hothers : ∀ L, L ≠ i.listId → _ := fun L hL => contents_deleteItem hitem hL
        by_cases htouched : i.listId ≠ [] ∧ updatedAt.getD [] ≠ []
        · obtain ⟨ts, hts, htouch⟩ := touchList?_of_ne htouched.2
          refine .inl ⟨i.listId, ts, hts, ?_⟩
          rw [if_neg htouched.1, htouch]
          exact Written.touch hothers rfl
        · rw [touchItemList_of_not htouched]
          refine .inr ⟨rfl, fun L hnot => ?_⟩
          refine hothers L fun hL => hnot ⟨hid, ?_, i, itemIn_eq_some.2 ⟨hitem, hL.symm⟩⟩
          rw [hL]
          by_contra hneither
          rw [not_or] at hneither
          exact htouched ⟨hneither.2, hneither.1⟩
  | setChecked itemId checked updatedAt =>
    simp only [step, Unversioned, setListItemChecked]
    split
    · exact .inr ⟨rfl, fun _ _ => rfl⟩
    · next hid =>
      split
      · exact .inr ⟨rfl, fun _ _ => rfl⟩
      · next i hitem =>
        have hkeeps (i : ListItem) : ((checkItem checked updatedAt).apply i).listId = i.listId := rfl
        have hothers : ∀ L, L ≠ i.listId → _ := fun L hL => contents_updateKey_of_ne hkeeps hitem hL
        by_cases hlist : i.listId = []
        · rw [if_pos hlist]
          refine .inr ⟨rfl, fun L hnot => ?_⟩
          by_cases hL : L = i.listId
          · funext id
            rw [ListDb.contents, itemIn_updateKey hkeeps, ListDb.contents, Option.map_map]
            refine Option.map_congr fun j hj => ?_
            by_cases hsame : id = strip itemId
            · have hchecked : j.checked = checked := by
                by_contra hne
                exact hnot ⟨hid, hL.trans hlist, j, hsame ▸ hj, hne⟩
              simp [hsame, checkItem, hchecked]
            · simp [hsame]
          · exact hothers L hL
        · rw [if_neg hlist]
          exact .inl ⟨i.listId, updatedAt, rfl, Written.touch hothers rfl⟩
  | deleteAll listId updatedAt =>
    simp only [step, Unversioned, deleteAllListItems]
    split
    · exact .inr ⟨rfl, fun _ _ => rfl⟩
    · next hid =>
      have hothers : ∀ L, L ≠ strip listId → _ := fun L hL =>
        @deleteOf_contents s.db (strip listId) L hL
      by_cases hupdated : updatedAt.getD [] = []
      · rw [ListDb.touchList?, if_pos hupdated]
        refine .inr ⟨rfl, fun L hnot => ?_⟩
        by_cases hL : L = strip listId
        · funext id
          rw [contents_delete, ListDb.contents]
          cases hitem : s.db.itemIn L id with
          | none => rfl
          | some i => exact absurd ⟨hL.symm, hL ▸ hid, hupdated, id, i, hitem⟩ hnot
        · exact hothers L hL
      · obtain ⟨ts, hts, htouch⟩ := touchList?_of_ne hupdated
        refine .inl ⟨strip listId, ts, hts, ?_⟩
        rw [htouch]
        exact Written.touch hothers rfl

/-- A version can only be shown before a call, or be the timestamp of the call. -/
theorem version_of_step (h : (step s c).db.version L = some v) :
    s.db.version L = some v ∨ c.timestamp? = some v := by
  rcases step_cases s c with ⟨target, ts, hts, hwritten⟩ | ⟨hlists, -⟩
  · by_cases hL : L = target
    · subst hL
      rcases hwritten.target with ⟨-, hversion⟩ | hversion | hversion
      · exact .inl (hversion ▸ h)
      · rw [h] at hversion
        exact .inr (hts.trans hversion.symm)
      · rw [h] at hversion
        cases hversion
    · exact .inl ((hwritten.others L hL).2 ▸ h)
  · exact .inl (version_congr hlists ▸ h)

/-- A call with another timestamp keeps the items of a list whose version it leaves. -/
theorem contents_of_step (hts : c.timestamp? ≠ some v)
    (hversion : (step s c).db.version L = some v) (hnot : ¬Unversioned s L c) :
    (step s c).db.contents L = s.db.contents L := by
  rcases step_cases s c with ⟨target, ts, hstamp, hwritten⟩ | ⟨-, hcontents⟩
  · by_cases hL : L = target
    · subst hL
      rcases hwritten.target with ⟨hcontents, -⟩ | hnew | hnone
      · exact hcontents
      · rw [hversion] at hnew
        exact absurd (hstamp.trans hnew.symm) hts
      · rw [hversion] at hnone
        cases hnone
    · exact (hwritten.others L hL).1
  · exact hcontents L hnot

omit [PythonText] in
theorem contents_ne_of_none {db db' : ListDb} {id : Str} {i : ListItem}
    (hitem : db.itemIn L id = some i) (hgone : db'.itemIn L id = none) :
    db'.contents L ≠ db.contents L := by
  intro hsame
  have hid := congrFun hsame id
  rw [ListDb.contents, ListDb.contents, hitem, hgone] at hid
  cases hid

/-- What an unversioned call does. -/
theorem unversioned_step (h : Unversioned s L c) :
    (step s c).db.version L = s.db.version L ∧ (step s c).db.contents L ≠ s.db.contents L := by
  cases c with
  | typed c => exact h.elim
  | addItem freshId r =>
    obtain ⟨rfl, i, hreply⟩ := h
    simp only [step, addListItem] at hreply ⊢
    split at hreply
    · cases hreply
    · next hreplayed =>
      split at hreply
      · next db' hinsert =>
        obtain ⟨hfresh, hfind⟩ := find?_insertItem hinsert
        have hnew : db'.itemIn (strip r.listId) freshId = some _ :=
          itemIn_eq_some.2 ⟨(hfind freshId).trans (if_pos rfl), rfl⟩
        have hold : s.db.itemIn (strip r.listId) freshId = none := by
          rw [ListDb.itemIn]
          exact (congrArg _ hfresh).trans rfl
        exact ⟨congrFun (version_congr (lists_insertItem hinsert)) _,
          (contents_ne_of_none hnew hold).symm⟩
      · cases hreply
  | deleteItem itemId updatedAt =>
    obtain ⟨hid, huntouched, i, hitem⟩ := h
    obtain ⟨hfind, hlist⟩ := itemIn_eq_some.1 hitem
    have hsame : ¬(i.listId ≠ [] ∧ updatedAt.getD [] ≠ []) := by
      rintro ⟨hne, hupdated⟩
      exact huntouched.elim hupdated fun hL => hne (hlist.trans hL)
    simp only [step, deleteListItem, if_neg hid, hfind, touchItemList_of_not hsame]
    refine ⟨rfl, contents_ne_of_none hitem ?_⟩
    rw [ListDb.itemIn, Table.find?_delete_key, if_pos rfl, Option.filter_none]
  | setChecked itemId checked updatedAt =>
    obtain ⟨hid, rfl, i, hitem, hchecked⟩ := h
    obtain ⟨hfind, hlist⟩ := itemIn_eq_some.1 hitem
    have hkeeps (i : ListItem) : ((checkItem checked updatedAt).apply i).listId = i.listId := rfl
    simp only [step, setListItemChecked, if_neg hid, hfind, if_pos hlist]
    refine ⟨rfl, fun hsame => hchecked ?_⟩
    have hcontents := congrFun hsame (strip itemId)
    rw [ListDb.contents, itemIn_updateKey hkeeps, ListDb.contents, hitem] at hcontents
    simpa [checkItem] using hcontents.symm
  | deleteAll listId updatedAt =>
    obtain ⟨rfl, hid, hupdated, id, i, hitem⟩ := h
    simp only [step, deleteAllListItems, if_neg hid, ListDb.touchList?, if_pos hupdated]
    refine ⟨rfl, contents_ne_of_none hitem ?_⟩
    obtain ⟨hfind, hlist⟩ := itemIn_eq_some.1 hitem
    rw [ListDb.itemIn, Table.find?_delete, hfind]
    simp [Option.filter_some, hlist]

/-- A version that a list shows is the timestamp of an earlier call. -/
theorem version_mem (calls : List Call) (h : (run step ∅ calls).db.version L = some v) :
    some v ∈ calls.map Call.timestamp? := by
  induction calls using List.reverseRecOn with
  | nil => cases h
  | append_singleton calls c ih =>
    rw [run_concat] at h
    rw [List.map_append, List.mem_append]
    rcases version_of_step h with hbefore | hstamp
    · exact .inl (ih hbefore)
    · exact .inr (by simp [hstamp])

/-- Calls with other timestamps end in a version only where they start in it. -/
theorem version_of_run (calls : List Call) (hcalls : ∀ c ∈ calls, c.timestamp? ≠ some v)
    (h : (run step s calls).db.version L = some v) : s.db.version L = some v := by
  induction calls generalizing s with
  | nil => exact h
  | cons c calls ih =>
    have hafter := ih (fun d hd => hcalls d (List.mem_cons_of_mem _ hd)) h
    exact (version_of_step hafter).resolve_right (hcalls c List.mem_cons_self)

/-- Over calls with other timestamps that are no unversioned changes, a list that still shows
its version has its items. -/
theorem contents_of_run (calls : List Call) (hcalls : ∀ c ∈ calls, c.timestamp? ≠ some v)
    (hnot : ∀ pre c post, calls = pre ++ c :: post →
      (run step s pre).db.version L = some v → ¬Unversioned (run step s pre) L c)
    (h : (run step s calls).db.version L = some v) :
    (run step s calls).db.contents L = s.db.contents L := by
  induction calls generalizing s with
  | nil => rfl
  | cons c calls ih =>
    have hrest : ∀ d ∈ calls, d.timestamp? ≠ some v :=
      fun d hd => hcalls d (List.mem_cons_of_mem _ hd)
    have hafter : (step s c).db.version L = some v := version_of_run calls hrest h
    have hbefore : s.db.version L = some v :=
      (version_of_step hafter).resolve_right (hcalls c List.mem_cons_self)
    have hfirst : (step s c).db.contents L = s.db.contents L :=
      contents_of_step (hcalls c List.mem_cons_self) hafter (hnot [] c calls rfl hbefore)
    rw [run_cons, ← hfirst]
    refine ih hrest (fun pre d post hsplit hversion => ?_) h
    have hd := hnot (c :: pre) d post (by rw [hsplit, List.cons_append])
    rw [run_cons] at hd
    exact hd hversion

/-- A mutation that is carried out has found the version it expects. -/
theorem version_of_mutate {r : MutateRequest} {result : OperationResult}
    (h : (s.transact (.mutate r)).1 = .ok (.mutation result false)) :
    s.db.version (strip r.listId) = some r.expectedVersion := by
  unfold ListStore.transact at h
  split at h
  · cases h
  · obtain ⟨db', hrun⟩ : ∃ db', mutateListWithOperation r s.db = .ok (.mutation result false, db') :=
      ⟨_, Transaction.reply_eq_ok.1 h⟩
    unfold mutateListWithOperation at hrun
    split at hrun
    · cases hrun
    · simp only [mutateList, bind_eq_ok] at hrun
      obtain ⟨recorded, -, hrun⟩ := hrun
      cases recorded with
      | some op => simp at hrun
      | none =>
        dsimp only at hrun
        split at hrun
        · cases hrun
        · next l howned =>
          simp only [bind_eq_ok, require_eq_ok, decide_eq_true_eq] at hrun
          obtain ⟨-, hversion, -⟩ := hrun
          rw [ListDb.version, (owned_eq_some.1 howned).1, Option.map_some, hversion]

theorem version_guards (calls : List Call) (r : MutateRequest) (result : OperationResult)
    (hdistinct : (calls.filterMap Call.timestamp?).Nodup)
    (haccepted : ((run step ∅ calls).transact (.mutate r)).1 = .ok (.mutation result false)) :
    (∀ pre post, calls = pre ++ post →
        (run step ∅ pre).db.version (strip r.listId) = some r.expectedVersion →
        (run step ∅ pre).db.contents (strip r.listId) =
          (run step ∅ calls).db.contents (strip r.listId)) ↔
      ∀ pre c post, calls = pre ++ c :: post →
        (run step ∅ pre).db.version (strip r.listId) = some r.expectedVersion →
        ¬Unversioned (run step ∅ pre) (strip r.listId) c := by
  have hversion := version_of_mutate haccepted
  constructor
  · intro hsame pre c post hsplit hshown hunversioned
    obtain ⟨hkept, hchanged⟩ := unversioned_step hunversioned
    have hbefore := hsame pre (c :: post) hsplit hshown
    have hafter := hsame (pre ++ [c]) post (by rw [hsplit, List.append_assoc]; rfl)
    rw [run_concat] at hafter
    exact hchanged ((hafter (hkept.trans hshown)).trans hbefore.symm)
  · intro hnot pre post hsplit hshown
    have hmem : some r.expectedVersion ∈ pre.map Call.timestamp? := version_mem pre hshown
    -- The version is the timestamp of a call before, so that no later call has it.
    have hlater : ∀ c ∈ post, c.timestamp? ≠ some r.expectedVersion := by
      intro c hc hstamp
      rw [hsplit, List.filterMap_append] at hdistinct
      obtain ⟨d, hd, hdstamp⟩ := List.mem_map.1 hmem
      exact (List.nodup_append.1 hdistinct).2.2 _ (List.mem_filterMap.2 ⟨d, hd, hdstamp⟩) _
        (List.mem_filterMap.2 ⟨c, hc, hstamp⟩) rfl
    rw [hsplit, run_append] at hversion ⊢
    refine (contents_of_run post hlater (fun mid c rest hmid hshown' => ?_) hversion).symm
    have hstep := hnot (pre ++ mid) c rest (by rw [hsplit, hmid, List.append_assoc])
    rw [run_append] at hstep
    exact hstep hshown'

end Guard

section Samples

def groceries : CreateRequest :=
  ⟨"u1", "Groceries", "groceries", "u1", "t1", "create-1", "hash-1"⟩

/-- An item that is added on its own after the list was created. -/
def lateItem : ItemRequest where
  listId := "list-1"
  itemName := "milk"
  addedBy := "u1"
  longDesc := none
  qty := none
  checked := false
  addedAt := "t2"
  updatedAt := "t2"
  operationId := none

/-- A clearing of the list as it was when it was created. -/
def clearGroceries : MutateRequest where
  ownerUserId := "u1"
  listId := "list-1"
  action := "lists.clear_collection"
  itemIds := []
  patch := []
  expectedVersion := "t1"
  timestamp := "t3"
  operationId := "clear-1"
  argumentsHash := "hash-2"

def createdCalls : List Call := [.typed (.create "list-1" groceries)]

def lateCalls : List Call := createdCalls ++ [.addItem "item-1" lateItem]

def apartCalls : List Call :=
  createdCalls ++ [.typed (.create "list-2"
    ⟨"u1", "Errands", "errands", "u1", "t2", "create-2", "hash-2"⟩)]

theorem version_guards_created :
    (run (@step asciiText) ∅ createdCalls).db.contents "list-1" =
      (run (@step asciiText) ∅ apartCalls).db.contents "list-1" :=
  (@version_guards asciiText apartCalls clearGroceries (.cleared 0 false "t1")
    (by decide +kernel) (by decide +kernel)).2 (by
      intro pre c post hsplit _
      have hc : c ∈ apartCalls := hsplit ▸ List.mem_append_right _ List.mem_cons_self
      rcases List.mem_pair.1 hc with rfl | rfl
      · exact id
      · exact id)
    createdCalls _ rfl (by decide +kernel)

/-- The clearing is carried out although an item was added since its version. -/
theorem clear_destroys_late_item :
    ¬∀ (calls : List Call) (r : MutateRequest) (result : OperationResult),
      (calls.filterMap Call.timestamp?).Nodup →
      (@ListStore.transact asciiText (run (@step asciiText) ∅ calls) (.mutate r)).1 =
        .ok (.mutation result false) →
      ∀ pre post, calls = pre ++ post →
        (run (@step asciiText) ∅ pre).db.version (strip r.listId) = some r.expectedVersion →
        (run (@step asciiText) ∅ pre).db.contents (strip r.listId) =
          (run (@step asciiText) ∅ calls).db.contents (strip r.listId) := by
  intro h
  have hsame := h lateCalls clearGroceries (.cleared 1 true "t3") (by decide +kernel)
    (by decide +kernel) createdCalls [.addItem "item-1" lateItem] rfl (by decide +kernel)
  have hitem := congrFun hsame "item-1"
  revert hitem
  decide +kernel

end Samples

end HardyAI.Lists
