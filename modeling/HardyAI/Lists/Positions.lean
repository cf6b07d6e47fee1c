import HardyAI.Lists.Versions

/-! The positions of the items of a list, which the typed operations keep counted from one in
the order of the table. -/

open Foundation Foundation.Json Foundation.Trace

namespace HardyAI.Lists

section Counted

/-- The positions `start`, `start + 1`, … of a number of items. -/
def countFrom (start count : Nat) : List Int := (List.range' start count).map Nat.cast

/-- The items of a list are in their positions, counted from one. -/
def ListDb.Counted (db : ListDb) (L : Str) : Prop :=
  (db.itemsOf L).map ListItem.position = countFrom 1 (db.itemsOf L).length

theorem countFrom_succ (start count : Nat) :
    countFrom start (count + 1) = (start : Int) :: countFrom (start + 1) count := by
  rw [countFrom, List.range'_succ, List.map_cons, countFrom]

theorem countFrom_append (start m n : Nat) :
    countFrom start m ++ countFrom (start + m) n = countFrom start (m + n) := by
  rw [countFrom, countFrom, ← List.map_append, List.range'_append_1, countFrom]

theorem pairwise_countFrom (start count : Nat) : (countFrom start count).Pairwise (· < ·) := by
  have hrange : (List.range' start count).Pairwise (· < ·) := List.pairwise_lt_range'
  exact List.pairwise_map.2 (hrange.imp fun hlt => by exact_mod_cast hlt)

variable {db db' : ListDb} {L : Str}

theorem maxPosition_of_counted (h : db.Counted L) :
    maxPosition (db.itemsOf L) = (db.itemsOf L).length := by
  rw [maxPosition, h]
  cases hlength : (db.itemsOf L).length with
  | zero => rfl
  | succ n =>
    have hmax : (countFrom 1 (n + 1)).max? = some ((n + 1 : Nat) : Int) := by
      rw [List.max?_eq_some_iff]
      constructor
      · exact List.mem_map.2 ⟨n + 1, List.mem_range'_1.2 ⟨by omega, by omega⟩, rfl⟩
      · intro b hb
        obtain ⟨k, hk, rfl⟩ := List.mem_map.1 hb
        have hbound := List.mem_range'_1.1 hk
        exact_mod_cast (show k ≤ n + 1 by omega)
    rw [hmax, Option.getD_some]

theorem counted_of_items (h : db'.itemsOf L = db.itemsOf L) (hcounted : db.Counted L) :
    db'.Counted L := by
  rw [ListDb.Counted, h]
  exact hcounted

theorem counted_of_positions (h : (db'.itemsOf L).map ListItem.position =
    (db.itemsOf L).map ListItem.position) (hcounted : db.Counted L) : db'.Counted L := by
  have hlength := congrArg List.length h
  rw [List.length_map, List.length_map] at hlength
  rw [ListDb.Counted, h, hlength]
  exact hcounted

theorem itemsOf_congr (h : db'.items = db.items) : db'.itemsOf = db.itemsOf := by
  funext L
  rw [ListDb.itemsOf, ListDb.itemsOf, h]

/-- Rows that are appended to the items. -/
theorem itemsOf_append {added : List ListItem} (h : db'.items.rows = db.items.rows ++ added) :
    db'.itemsOf L = db.itemsOf L ++ added.filter fun i => i.listId = L := by
  rw [ListDb.itemsOf, h, List.filter_append, ListDb.itemsOf]

theorem rows_insertItem {i : ListItem} (h : db.insertItem i = .ok db') :
    db'.items.rows = db.items.rows ++ [i] := by
  obtain ⟨items, hinsert, -, rfl⟩ := insertItem_eq_ok.1 h
  exact (Table.insert?_eq_some (Table.insertApart?_eq_some.1 hinsert).2).2

theorem rows_foldlM_insertItem {added : List ListItem}
    (h : added.foldlM ListDb.insertItem db = .ok db') :
    db'.items.rows = db.items.rows ++ added := by
  induction added generalizing db with
  | nil =>
    obtain rfl : db = db' := by simpa [Pure.pure, Except.pure] using h
    rw [List.append_nil]
  | cons i added ih =>
    rw [List.foldlM_cons, bind_eq_ok] at h
    obtain ⟨db₁, hfirst, hrest⟩ := h
    rw [ih hrest, rows_insertItem hfirst, List.append_assoc, List.singleton_append]

theorem itemsOf_delete (g : ListItem → Bool) :
    { db with items := db.items.delete g }.itemsOf L = (db.itemsOf L).filter fun i => !g i := by
  rw [ListDb.itemsOf, Table.delete, List.filter_filter, ListDb.itemsOf, List.filter_filter]
  simp only [Bool.and_comm]

/-- An update that moves no item and takes none to another list. -/
theorem positions_updateKey {k : Str} {f : Table.Assignment ListItem.itemId}
    (hlist : ∀ i, (f.apply i).listId = i.listId)
    (hposition : ∀ i, (f.apply i).position = i.position) :
    ({ db with items := (db.items.updateKey k (fun _ => true) f).2 }.itemsOf L).map
      ListItem.position = (db.itemsOf L).map ListItem.position := by
  rw [ListDb.itemsOf, Table.updateKey, Table.update, List.filter_map, List.map_map,
    ListDb.itemsOf]
  have hsame : ((fun i : ListItem => decide (i.listId = L)) ∘ fun r =>
      if (decide (r.itemId = k) && true) = true then f.apply r else r) =
      fun i => decide (i.listId = L) := by
    funext i
    by_cases hi : i.itemId = k <;> simp [hi, hlist]
  rw [hsame]
  refine List.map_congr_left fun i _ => ?_
  by_cases hi : i.itemId = k <;> simp [hi, hposition]

end Counted

section Renumber

/-- Where the renumbering of `remaining`, counted from `start`, leaves an item. -/
def placed : List ListItem → Nat → ListItem → ListItem
  | [], _, i => i
  | x :: rest, start, i =>
    placed rest (start + 1) (if i.itemId = x.itemId then (moveItem start).apply i else i)

theorem placed_fields (remaining : List ListItem) (start : Nat) (i : ListItem) :
    (placed remaining start i).itemId = i.itemId ∧
      (placed remaining start i).listId = i.listId := by
  induction remaining generalizing start i with
  | nil => exact ⟨rfl, rfl⟩
  | cons x rest ih =>
    rw [placed, (ih _ _).1, (ih _ _).2]
    split <;> exact ⟨rfl, rfl⟩

theorem placed_of_not_mem {remaining : List ListItem} {start : Nat} {i : ListItem}
    (h : i.itemId ∉ remaining.map ListItem.itemId) : placed remaining start i = i := by
  induction remaining generalizing start with
  | nil => rfl
  | cons x rest ih =>
    rw [List.map_cons, List.mem_cons, not_or] at h
    rw [placed, if_neg h.1, ih h.2]

theorem rows_renumber_from (remaining : List ListItem) (start : Nat)
    (items : Table ListItem.itemId) :
    ((remaining.zipIdx start).foldl (fun items p =>
      (items.updateKey p.1.itemId (fun _ => true) (moveItem p.2)).2) items).rows =
      items.rows.map (placed remaining start) := by
  induction remaining generalizing start items with
  | nil => exact (List.map_id items.rows).symm
  | cons x rest ih =>
    rw [List.zipIdx_cons, List.foldl_cons, ih, Table.updateKey, Table.update, List.map_map]
    refine List.map_congr_left fun i _ => ?_
    simp only [Function.comp_apply, Bool.and_true, decide_eq_true_eq, placed]

/-- The renumbered items of a list without repetitions are counted from the start. -/
theorem map_placed (remaining : List ListItem) (start : Nat)
    (hnodup : (remaining.map ListItem.itemId).Nodup) :
    remaining.map (fun i => (placed remaining start i).position) =
      countFrom start remaining.length := by
  induction remaining generalizing start with
  | nil => rfl
  | cons x rest ih =>
    rw [List.map_cons, List.nodup_cons] at hnodup
    have hhead : (placed (x :: rest) start x).position = start := by
      rw [placed, if_pos rfl, placed_of_not_mem (by exact hnodup.1)]
      rfl
    have htail : rest.map (fun i => (placed (x :: rest) start i).position) =
        rest.map fun i => (placed rest (start + 1) i).position := by
      refine List.map_congr_left fun i hi => ?_
      have hne : i.itemId ≠ x.itemId := fun heq => hnodup.1 (heq ▸ List.mem_map_of_mem hi)
      rw [placed, if_neg hne]
    rw [List.map_cons, hhead, htail, ih _ hnodup.2, List.length_cons, countFrom_succ]

variable {db : ListDb} {L : Str}

theorem itemsOf_renumber (remaining : List ListItem) :
    { db with items := renumber remaining db.items }.itemsOf L =
      (db.itemsOf L).map (placed remaining 1) := by
  rw [ListDb.itemsOf, renumber, rows_renumber_from, List.filter_map, ListDb.itemsOf]
  have hsame : ((fun i : ListItem => decide (i.listId = L)) ∘ placed remaining 1) =
      fun i => decide (i.listId = L) := by
    funext i
    simp only [Function.comp_apply, (placed_fields remaining 1 i).2]
  rw [hsame]

theorem nodup_itemsOf (db : ListDb) (L : Str) : ((db.itemsOf L).map ListItem.itemId).Nodup :=
  (List.filter_sublist.map ListItem.itemId).nodup db.items.unique

/-- The renumbering of the items of a list in table order. -/
theorem counted_renumber :
    { db with items := renumber (db.itemsOf L) db.items }.Counted L := by
  rw [ListDb.Counted, itemsOf_renumber, List.map_map, List.length_map]
  exact map_placed (db.itemsOf L) 1 (nodup_itemsOf db L)

theorem itemsOf_renumber_of_ne {other : Str} (hne : other ≠ L) :
    { db with items := renumber (db.itemsOf L) db.items }.itemsOf other = db.itemsOf other := by
  rw [itemsOf_renumber]
  refine (List.map_congr_left fun i hi => ?_).trans (List.map_id _)
  refine placed_of_not_mem fun hmem => ?_
  obtain ⟨j, hj, hkey⟩ := List.mem_map.1 hmem
  obtain ⟨hrow, hlist⟩ := List.mem_filter.1 hi
  obtain ⟨hrow', hlist'⟩ := List.mem_filter.1 hj
  have hsame : j = i := db.items.key_injective hrow' hrow hkey
  rw [hsame] at hlist'
  exact hne ((of_decide_eq_true hlist).symm.trans (of_decide_eq_true hlist'))

theorem counted_renumber_of_ne {other : Str} (hne : other ≠ L) (hcounted : db.Counted other) :
    { db with items := renumber (db.itemsOf L) db.items }.Counted other :=
  counted_of_items (itemsOf_renumber_of_ne hne) hcounted

/-- Items whose positions increase in table order are sorted. -/
theorem sorted_of_pairwise {items : List ListItem}
    (h : (items.map ListItem.position).Pairwise (· < ·)) :
    items.insertionSort ListItem.positionOrder = items :=
  List.Pairwise.insertionSort_eq ((List.pairwise_map.1 h).imp .inl)

end Renumber

section Typed

variable [PythonText] {db db' : ListDb} {o : Outcome}

omit [PythonText] in
theorem items_record {op : ListOperation} (h : db.record op = .ok db') : db'.items = db.items := by
  obtain ⟨operations, -, rfl⟩ := record_eq_ok.1 h
  rfl

theorem create_counted {freshId : Str} {r : CreateRequest}
    (h : createListWithOperation freshId r db = .ok (o, db')) : db'.items = db.items := by
  simp only [createListWithOperation, bind_eq_ok] at h
  obtain ⟨recorded, -, h⟩ := h
  cases recorded with
  | some op =>
    dsimp only at h
    split at h
    · cases h
    · cases h
      rfl
  | none =>
    simp only [bind_eq_ok] at h
    obtain ⟨⟨row, created, inserted⟩, hinserted, db₁, hrecord, h⟩ := h
    cases h
    have hitems : inserted.items = db.items := by
      unfold ListDb.findOrInsert at hinserted
      split at hinserted
      · cases hinserted
        rfl
      · split at hinserted
        · cases hinserted
        · cases hinserted
          rfl
    exact (items_record hrecord).trans hitems

omit [PythonText] in
theorem positions_added {fresh : Nat → Str} {r : AddRequest} (n : Nat) :
    (r.itemNames.zipIdx.map fun p => r.item fresh (n + 1) p.2 p.1).map ListItem.position =
      countFrom (1 + n) r.itemNames.length := by
  have hposition : (ListItem.position ∘ fun p : Str × Nat => r.item fresh (n + 1) p.2 p.1) =
      (fun k : Nat => ((1 + n + k : Nat) : Int)) ∘ Prod.snd := by
    funext p
    simp only [Function.comp_apply, AddRequest.item]
    omega
  have hrange : List.range' (1 + n) r.itemNames.length =
      (List.range' 0 r.itemNames.length).map fun k => 1 + n + k :=
    (List.map_add_range' 0 r.itemNames.length 1).symm
  rw [List.map_map, hposition, ← List.map_map, List.zipIdx_map_snd, countFrom, hrange,
    List.map_map]
  rfl

theorem add_counted {fresh : Nat → Str} {r : AddRequest} (hdb : ∀ L, db.Counted L)
    (h : addListItemsWithOperation fresh r db = .ok (o, db')) (L : Str) : db'.Counted L := by
  simp only [addListItemsWithOperation, bind_eq_ok] at h
  obtain ⟨recorded, -, h⟩ := h
  cases recorded with
  | some op =>
    simp only [bind_eq_ok] at h
    obtain ⟨rows, -, h⟩ := h
    cases h
    exact hdb L
  | none =>
    simp only [bind_eq_ok, maxPosition_of_counted (hdb (strip r.listId))] at h
    obtain ⟨-, -, inserted, hinserted, db₁, hrecord, h⟩ := h
    cases h
    have hrows := rows_foldlM_insertItem hinserted
    have hitems : db'.itemsOf = inserted.itemsOf :=
      itemsOf_congr ((items_record hrecord).trans rfl)
    rw [ListDb.Counted, hitems, itemsOf_append hrows]
    by_cases hL : L = strip r.listId
    · have hall : (r.itemNames.zipIdx.map fun p =>
          r.item fresh ((db.itemsOf (strip r.listId)).length + 1) p.2 p.1).filter
            (fun i => decide (i.listId = L)) = r.itemNames.zipIdx.map fun p =>
          r.item fresh ((db.itemsOf (strip r.listId)).length + 1) p.2 p.1 := by
        refine List.filter_eq_self.2 fun i hi => ?_
        obtain ⟨p, -, rfl⟩ := List.mem_map.1 hi
        exact decide_eq_true hL.symm
      rw [hall, List.map_append, hdb L, hL, positions_added, countFrom_append, List.length_append,
        List.length_map, List.length_zipIdx]
    · have hnone : (r.itemNames.zipIdx.map fun p =>
          r.item fresh ((db.itemsOf (strip r.listId)).length + 1) p.2 p.1).filter
            (fun i => decide (i.listId = L)) = [] := by
        refine List.filter_eq_nil_iff.2 fun i hi => ?_
        obtain ⟨p, -, rfl⟩ := List.mem_map.1 hi
        simpa [AddRequest.item] using fun heq : strip r.listId = L => hL heq.symm
      rw [hnone, List.append_nil]
      exact hdb L

variable {r : MutateRequest} {rows : List ListItem} {result : Str → OperationResult}
  {changed : Bool}

theorem updateItem_counted (hdb : ∀ L, db.Counted L)
    (h : r.updateItem rows db = .ok (db', result, changed)) (L : Str) : db'.Counted L := by
  unfold MutateRequest.updateItem at h
  split at h
  · simp only [bind_eq_ok] at h
    obtain ⟨-, -, name, -, h⟩ := h
    split at h
    · cases h
      exact counted_of_positions (positions_updateKey (fun _ => rfl) fun _ => rfl) (hdb L)
    · cases h
      exact hdb L
  · cases h

omit [PythonText] in
theorem removeItems_counted (hdb : ∀ L, db.Counted L)
    (hids : rows.map ListItem.itemId = r.itemIds)
    (hrows : ∀ i ∈ rows, db.itemIn (strip r.listId) i.itemId = some i)
    (h : r.removeItems rows db = .ok (db', result, changed)) (L : Str) : db'.Counted L := by
  simp only [MutateRequest.removeItems, bind_eq_ok] at h
  obtain ⟨-, -, h⟩ := h
  cases h
  have hsorted : ({ db with items := db.items.delete fun i => r.itemIds.contains i.itemId }.itemsOf
      (strip r.listId)).insertionSort ListItem.positionOrder =
      { db with items := db.items.delete fun i => r.itemIds.contains i.itemId }.itemsOf
        (strip r.listId) := by
    refine sorted_of_pairwise ?_
    rw [itemsOf_delete]
    have hbefore : ((db.itemsOf (strip r.listId)).map ListItem.position).Pairwise (· < ·) := by
      rw [hdb (strip r.listId)]
      exact pairwise_countFrom 1 _
    exact hbefore.sublist (List.filter_sublist.map ListItem.position)
  rw [hsorted]
  by_cases hL : L = strip r.listId
  · subst hL
    exact @counted_renumber
      { db with items := db.items.delete fun i => r.itemIds.contains i.itemId } (strip r.listId)
  · refine @counted_renumber_of_ne
      { db with items := db.items.delete fun i => r.itemIds.contains i.itemId }
      (strip r.listId) L hL ?_
    refine counted_of_items ?_ (hdb L)
    rw [itemsOf_delete]
    refine List.filter_eq_self.2 fun i hi => ?_
    obtain ⟨hrow, hlist⟩ := List.mem_filter.1 hi
    rw [Bool.not_eq_true', ← Bool.not_eq_true, List.contains_eq_mem, decide_eq_true_eq, ← hids]
    intro hmem
    obtain ⟨j, hj, hkey⟩ := List.mem_map.1 hmem
    obtain ⟨hfind, hlistId⟩ := itemIn_eq_some.1 (hrows j hj)
    have hsame : j = i := db.items.key_injective (Table.mem_of_find? hfind) hrow hkey
    exact hL ((of_decide_eq_true hlist).symm.trans (hsame ▸ hlistId))

omit [PythonText] in
theorem deleteOf_counted (hdb : ∀ L, db.Counted L) (listId L : Str) :
    { db with items := db.items.delete fun i => decide (i.listId = listId) }.Counted L := by
  by_cases hL : L = listId
  · have hnone : { db with items := db.items.delete fun i => decide (i.listId = listId) }.itemsOf L
        = [] := by
      rw [itemsOf_delete]
      refine List.filter_eq_nil_iff.2 fun i hi => ?_
      have hlist : i.listId = L := of_decide_eq_true (List.mem_filter.1 hi).2
      simp [hlist, hL]
    rw [ListDb.Counted, hnone]
    rfl
  · refine counted_of_items ?_ (hdb L)
    rw [itemsOf_delete]
    refine List.filter_eq_self.2 fun i hi => ?_
    have hlist : i.listId = L := of_decide_eq_true (List.mem_filter.1 hi).2
    simp [hlist, hL]

theorem apply_counted {m : Mutation} (hdb : ∀ L, db.Counted L)
    (hids : rows.map ListItem.itemId = r.itemIds)
    (hrows : ∀ i ∈ rows, db.itemIn (strip r.listId) i.itemId = some i)
    (h : m.apply r rows db = .ok (db', result, changed)) (L : Str) : db'.Counted L := by
  cases m with
  | updateItem => exact updateItem_counted hdb h L
  | removeItems => exact removeItems_counted hdb hids hrows h L
  | clearCollection =>
    cases h
    exact deleteOf_counted hdb (strip r.listId) L
  | deleteCollection =>
    cases h
    exact deleteOf_counted hdb (strip r.listId) L

theorem mutate_counted (hdb : ∀ L, db.Counted L)
    (h : mutateListWithOperation r db = .ok (o, db')) (L : Str) : db'.Counted L := by
  unfold mutateListWithOperation at h
  split at h
  · cases h
  · simp only [mutateList, bind_eq_ok] at h
    obtain ⟨recorded, -, h⟩ := h
    cases recorded with
    | some op =>
      cases h
      exact hdb L
    | none =>
      dsimp only at h
      split at h
      · cases h
      · simp only [bind_eq_ok] at h
        obtain ⟨-, -, -, -, rows, hrows, ⟨mutated, result, changed⟩, happly, db₁, hrecord, h⟩ := h
        cases h
        obtain ⟨hids, hall⟩ := mapM_itemIn hrows
        have hmutated := apply_counted hdb hids hall happly L
        refine counted_of_items (congrFun (itemsOf_congr ?_) L) hmutated
        rw [items_record hrecord]
        split <;> rfl

/-- Every typed operation keeps the positions of every list counted from one. -/
theorem run_counted {c : TypedCall} (hdb : ∀ L, db.Counted L) (L : Str) :
    (c.run.commit db).Counted L := by
  refine Transaction.commit_of_forall (P := fun db : ListDb => db.Counted L) (hdb L) fun o db' h => ?_
  cases c with
  | create freshId r => exact counted_of_items (congrFun (itemsOf_congr (create_counted h)) L) (hdb L)
  | add fresh r => exact add_counted hdb h L
  | mutate r => exact mutate_counted hdb h L

end Typed

end HardyAI.Lists
