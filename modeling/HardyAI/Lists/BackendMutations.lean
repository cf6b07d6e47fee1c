import HardyAI.Lists.BackendSteps

/-! One mutation on both storages: they find the same items, change them in the same way, and
hold the same lists afterwards. -/

open Foundation Foundation.Json Foundation.Trace

namespace HardyAI.Lists

section Items

variable {ρ : Str ≃ Str} {db : ListDb} {row : ListRow} {l : Memory.MemoryList} {L : Str}

theorem mem_itemsOf {i : ListItem} :
    i ∈ db.itemsOf L ↔ db.itemIn L i.itemId = some i := by
  rw [ListDb.itemsOf, List.mem_filter, itemIn_eq_some]
  constructor
  · rintro ⟨hi, hlist⟩
    exact ⟨Table.find?_of_mem hi, of_decide_eq_true hlist⟩
  · rintro ⟨hfind, hlist⟩
    exact ⟨Table.mem_of_find? hfind, decide_eq_true hlist⟩

theorem itemIn_eq_find? (db : ListDb) (L id : Str) :
    db.itemIn L id = (db.itemsOf L).reverse.find? fun i => i.itemId = id := by
  cases hfind : (db.itemsOf L).reverse.find? fun i => i.itemId = id with
  | none =>
    rw [List.find?_eq_none] at hfind
    rw [Option.eq_none_iff_forall_ne_some]
    intro i hi
    have hkey : i.itemId = id := Table.key_of_find? (itemIn_eq_some.1 hi).1
    have hmem : i ∈ db.itemsOf L := mem_itemsOf.2 (hkey ▸ hi)
    exact hfind i (List.mem_reverse.2 hmem) (decide_eq_true hkey)
  | some i =>
    have hkey : i.itemId = id := by simpa using List.find?_some hfind
    exact hkey ▸ mem_itemsOf.1 (List.mem_reverse.1 (List.mem_of_find?_eq_some hfind))

theorem entries_eq (hcollection : l.collection = (db.collection row).rename ρ) :
    l.entries.map Memory.MemoryItem.entry =
      (db.itemsOf row.listId).map fun i => i.entry.rename ρ := by
  have hentries : l.entries.map Memory.MemoryItem.entry =
      ((db.itemsOf row.listId).map ListItem.entry).map (ItemEntry.rename ρ) :=
    congrArg Collection.entries hcollection
  rw [hentries, List.map_map]
  rfl

/-- Both storages find an item of a list, or find none. -/
theorem item_eq (hcollection : l.collection = (db.collection row).rename ρ) (id : Str) :
    (l.item (ρ id)).map Memory.MemoryItem.entry =
      (db.itemIn row.listId id).map fun i => i.entry.rename ρ := by
  have hmemory : (l.item (ρ id)).map Memory.MemoryItem.entry =
      (l.entries.map Memory.MemoryItem.entry).reverse.find? fun e => e.itemId = ρ id := by
    rw [← List.map_reverse, List.find?_map]
    rfl
  have hfits : (fun e : ItemEntry => decide (e.itemId = ρ id)) ∘
      (fun i : ListItem => i.entry.rename ρ) = fun i => decide (i.itemId = id) := by
    funext i
    exact decide_eq_decide.2 ρ.injective.eq_iff
  rw [hmemory, entries_eq hcollection, ← List.map_reverse, List.find?_map, hfits, itemIn_eq_find?]

theorem item_cases (hcollection : l.collection = (db.collection row).rename ρ) (id : Str) :
    (db.itemIn row.listId id = none ∧ l.item (ρ id) = none) ∨
      ∃ i i', db.itemIn row.listId id = some i ∧ l.item (ρ id) = some i' ∧
        i'.entry = i.entry.rename ρ := by
  have hboth := item_eq hcollection id
  cases hitem : db.itemIn row.listId id with
  | none =>
    rw [hitem, Option.map_none, Option.map_eq_none_iff] at hboth
    exact .inl ⟨rfl, hboth⟩
  | some i =>
    rw [hitem, Option.map_some, Option.map_eq_some_iff] at hboth
    obtain ⟨i', hi', hentry⟩ := hboth
    exact .inr ⟨i, i', rfl, hi', hentry⟩

/-- Two results that are both errors, or both values of a relation. -/
def BothOr {β γ : Type} (R : β → γ → Prop) (x : Except PyError β) (y : Except PyError γ) : Prop :=
  (∃ e e', x = .error e ∧ y = .error e') ∨ ∃ b c, x = .ok b ∧ y = .ok c ∧ R b c

theorem Matches.bind {β γ : Type} {R : β → γ → Prop} {x : Except PyError β} {y : Except PyError γ}
    {rest : β → Except PyError (Outcome × ListDb)}
    {rest' : γ → Except PyError (Outcome × Memory.MemoryStore)} (h : BothOr R x y)
    (hrest : ∀ b c, x = .ok b → R b c → Matches ρ (rest b) (rest' c)) :
    Matches ρ (x >>= rest) (y >>= rest') := by
  rcases h with ⟨e, e', rfl, rfl⟩ | ⟨b, c, rfl, rfl, hbc⟩
  · exact trivial
  · exact hrest b c rfl hbc

theorem bothOr_require {β γ : Type} {R : β → γ → Prop} {condition condition' : Bool}
    {e e' : PyError} {rest : Unit → Except PyError β} {rest' : Unit → Except PyError γ}
    (hsame : condition = condition') (hrest : BothOr R (rest ()) (rest' ())) :
    BothOr R (require condition e >>= rest) (require condition' e' >>= rest') := by
  subst hsame
  cases condition with
  | false => exact .inl ⟨e, e', rfl, rfl⟩
  | true => exact hrest

/-- The items that a mutation names, on both sides. -/
theorem mapM_items (hcollection : l.collection = (db.collection row).rename ρ) (ids : List Str) :
    BothOr (fun rows rows' => rows'.map Memory.MemoryItem.entry =
        rows.map fun i : ListItem => i.entry.rename ρ)
      (ids.mapM fun id => match db.itemIn row.listId id with
        | none => Except.error (PyError.valueError "list_item_not_authorized")
        | some i => .ok i)
      ((ids.map ρ).mapM fun id => match l.item id with
        | none => Except.error (PyError.valueError "list_item_not_authorized")
        | some i => .ok i) := by
  induction ids with
  | nil => exact .inr ⟨[], [], rfl, rfl, rfl⟩
  | cons id ids ih =>
    rw [List.map_cons, List.mapM_cons, List.mapM_cons]
    rcases item_cases hcollection id with ⟨hnone, hnone'⟩ | ⟨i, i', hi, hi', hentry⟩
    · rw [hnone, hnone']
      exact .inl ⟨_, _, rfl, rfl⟩
    · rw [hi, hi']
      rcases ih with ⟨e, e', he, he'⟩ | ⟨rows, rows', hrows, hrows', hentries⟩
      · refine .inl ⟨e, e', ?_, ?_⟩
        · exact congrArg (fun x => x >>= fun rows => pure (i :: rows)) he
        · exact congrArg (fun x => x >>= fun rows => pure (i' :: rows)) he'
      · refine .inr ⟨i :: rows, i' :: rows', ?_, ?_, ?_⟩
        · exact congrArg (fun x => x >>= fun rows => pure (i :: rows)) hrows
        · exact congrArg (fun x => x >>= fun rows => pure (i' :: rows)) hrows'
        · have hcons : (i' :: rows').map Memory.MemoryItem.entry =
              (i :: rows).map fun i : ListItem => i.entry.rename ρ := by
            rw [List.map_cons, List.map_cons, hentry, hentries]
          exact hcons

end Items

section Mutations

/-- Two mutations of a list that leave the same and report the same. -/
structure MutatedAlike (ρ : Str ≃ Str) (db : ListDb) (row : ListRow) (l : Memory.MemoryList)
    (m : Mutation) (p : Mutated) (p' : Memory.Mutated) : Prop where
  changed : p'.2.2 = p.2.2
  result : ∀ version, p'.2.1 version = (p.2.1 version).rename ρ
  operations : p.1.operations = db.operations
  lists : m ≠ .deleteCollection → p.1.lists = db.lists
  others : m ≠ .deleteCollection → ∀ L, L ≠ row.listId → p.1.itemsOf L = db.itemsOf L
  entries : m ≠ .deleteCollection → (p'.1 l.entries).map Memory.MemoryItem.entry =
    (p.1.itemsOf row.listId).map fun i => i.entry.rename ρ
  deleted : m = .deleteCollection → p.1.collections =
    db.collections.filter fun c => c.listId ≠ row.listId

variable {ρ : Str ≃ Str} {db : ListDb} {row : ListRow} {l : Memory.MemoryList} {L : Str}
  {r : MutateRequest} {rows : List ListItem} {rows' : List Memory.MemoryItem}

theorem itemsOf_updateKey {k : Str} {f : Table.Assignment ListItem.itemId}
    (hlist : ∀ i, (f.apply i).listId = i.listId) :
    { db with items := (db.items.updateKey k (fun _ => true) f).2 }.itemsOf L =
      (db.itemsOf L).map fun i => if i.itemId = k then f.apply i else i := by
  rw [ListDb.itemsOf, Table.updateKey, Table.update, List.filter_map, ListDb.itemsOf]
  have hsame : ((fun i : ListItem => decide (i.listId = L)) ∘ fun i =>
      if (decide (i.itemId = k) && true) = true then f.apply i else i) =
      fun i => decide (i.listId = L) := by
    funext i
    by_cases hi : i.itemId = k <;> simp [hi, hlist]
  rw [hsame]
  refine List.map_congr_left fun i _ => ?_
  simp only [Bool.and_true, decide_eq_true_eq]

theorem patched_alike {i : ListItem} {i' : Memory.MemoryItem} (hentry : i'.entry = i.entry.rename ρ)
    (patch : List (Str × Json)) [PythonText] :
    Memory.patchedText patch i' = patchedName patch i ∧
      Memory.patchedFlag patch i' = patchedCheck patch i := by
  have hname : i'.itemName = i.itemName := congrArg ItemEntry.itemName hentry
  have hchecked : i'.checked = i.checked := congrArg ItemEntry.checked hentry
  rw [Memory.patchedText, patchedName, Memory.patchedFlag, patchedCheck, hname, hchecked]
  exact ⟨rfl, rfl⟩

/-- The items of a list after the change of one of them. -/
theorem entries_update {i : ListItem} {i' patched : Memory.MemoryItem}
    {f : Table.Assignment ListItem.itemId}
    (hcollection : l.collection = (db.collection row).rename ρ)
    (hi : db.itemIn row.listId i.itemId = some i) (hentry : i'.entry = i.entry.rename ρ)
    (hpatched : patched.entry = (f.apply i).entry.rename ρ) :
    (l.entries.map fun j => if j.itemId = i'.itemId then patched else j).map
        Memory.MemoryItem.entry =
      ((db.itemsOf row.listId).map fun j => if j.itemId = i.itemId then f.apply j else j).map
        fun i => i.entry.rename ρ := by
  have hid : i'.itemId = ρ i.itemId := congrArg ItemEntry.itemId hentry
  have hmemory : (l.entries.map fun j => if j.itemId = i'.itemId then patched else j).map
      Memory.MemoryItem.entry = (l.entries.map Memory.MemoryItem.entry).map
        fun e => if e.itemId = i'.itemId then patched.entry else e := by
    rw [List.map_map, List.map_map]
    refine List.map_congr_left fun j _ => ?_
    by_cases hj : j.itemId = i'.itemId
    · simp [hj, Memory.MemoryItem.entry]
    · simp [hj, Memory.MemoryItem.entry]
  rw [hmemory, entries_eq hcollection, List.map_map, List.map_map, hid]
  refine List.map_congr_left fun j hj => ?_
  have hkey : (j.entry.rename ρ).itemId = ρ j.itemId := rfl
  simp only [Function.comp_apply, hkey, ρ.injective.eq_iff]
  by_cases hsame : j.itemId = i.itemId
  · have hitem := mem_itemsOf.1 hj
    rw [hsame, hi] at hitem
    obtain rfl := Option.some.inj hitem
    rw [if_pos rfl, if_pos rfl, hpatched]
  · rw [if_neg hsame, if_neg hsame]

theorem updateOne_alike [PythonText] {i : ListItem} {i' : Memory.MemoryItem}
    (hcollection : l.collection = (db.collection row).rename ρ)
    (hi : db.itemIn row.listId i.itemId = some i) (hentry : i'.entry = i.entry.rename ρ) :
    BothOr (MutatedAlike ρ db row l .updateItem) (r.updateItem [i] db)
      (Memory.updateItem { r with listId := ρ r.listId, itemIds := r.itemIds.map ρ } [i']) := by
  obtain ⟨hname, hchecked⟩ := patched_alike hentry r.patch
  have hitemName : i'.itemName = i.itemName := congrArg ItemEntry.itemName hentry
  have hflag : i'.checked = i.checked := congrArg ItemEntry.checked hentry
  have hid : i'.itemId = ρ i.itemId := congrArg ItemEntry.itemId hentry
  have hlistId : i'.listId = ρ i.listId := congrArg ItemEntry.listId hentry
  have hposition : i'.position = i.position := congrArg ItemEntry.position hentry
  have hadded : i'.addedAt = i.addedAt := congrArg ItemEntry.addedAt hentry
  have hothers : ∀ (f : Table.Assignment ListItem.itemId), (∀ j, (f.apply j).listId = j.listId) →
      ∀ L, L ≠ row.listId →
        { db with items := (db.items.updateKey i.itemId (fun _ => true) f).2 }.itemsOf L =
          db.itemsOf L := by
    intro f hf L hL
    rw [itemsOf_updateKey hf]
    refine (List.map_congr_left fun j hj => ?_).trans (List.map_id _)
    have hne : j.itemId ≠ i.itemId := by
      intro heq
      obtain ⟨hfind, hlist⟩ := itemIn_eq_some.1 (mem_itemsOf.1 hj)
      obtain ⟨hfind', hlist'⟩ := itemIn_eq_some.1 hi
      rw [heq, hfind'] at hfind
      obtain rfl := Option.some.inj hfind
      exact hL (hlist.symm.trans hlist')
    rw [if_neg hne]
    rfl
  rw [MutateRequest.updateItem, Memory.updateItem]
  refine bothOr_require rfl ?_
  dsimp only
  rw [hname, hchecked, hitemName, hflag]
  cases patchedName r.patch i with
  | error e => exact .inl ⟨e, e, rfl, rfl⟩
  | ok itemName =>
    simp only [ok_bind]
    split
    · next hchanged =>
      have hpatched : ({ i' with itemName, checked := patchedCheck r.patch i
                                 updatedAt := r.timestamp } : Memory.MemoryItem).entry =
          ((patchItem itemName (patchedCheck r.patch i) r.timestamp).apply i).entry.rename ρ := by
        simp only [Memory.MemoryItem.entry, hid, hlistId, hposition, hadded]
        rfl
      refine .inr ⟨_, _, rfl, rfl, ⟨hchanged, fun version => ?_, rfl, fun _ => rfl,
        fun _ => hothers _ fun _ => rfl, fun _ => ?_, fun h => by cases h⟩⟩
      · rw [hchanged]
        exact congrArg (fun e => OperationResult.updated e true version) hpatched
      · rw [itemsOf_updateKey fun _ => rfl]
        exact entries_update hcollection hi hentry hpatched
    · next hsame =>
      have hfalse := Bool.eq_false_iff.2 hsame
      refine .inr ⟨_, _, rfl, rfl, ⟨hfalse, fun version => ?_, rfl, fun _ => rfl,
        fun _ _ _ => rfl, fun _ => ?_, fun h => by cases h⟩⟩
      · rw [hfalse]
        exact congrArg (fun e => OperationResult.updated e false version) hentry
      · have hupdate := @entries_update ρ db row l i i' i' ⟨id, fun _ => rfl⟩ hcollection hi hentry
          hentry
        simp only [id, ite_self, List.map_id'] at hupdate
        exact hupdate

theorem updateItem_alike [PythonText] (hcollection : l.collection = (db.collection row).rename ρ)
    (hrows : ∀ i ∈ rows, db.itemIn row.listId i.itemId = some i)
    (hrows' : rows'.map Memory.MemoryItem.entry = rows.map fun i => i.entry.rename ρ) :
    BothOr (MutatedAlike ρ db row l .updateItem) (r.updateItem rows db)
      (Memory.updateItem { r with listId := ρ r.listId, itemIds := r.itemIds.map ρ } rows') := by
  have hlength := congrArg List.length hrows'
  rw [List.length_map, List.length_map] at hlength
  match rows, rows' with
  | [], [] => exact .inl ⟨_, _, rfl, rfl⟩
  | [i], [i'] =>
    exact updateOne_alike hcollection (hrows i List.mem_cons_self) (List.cons.inj hrows').1
  | _ :: _ :: _, _ :: _ :: _ => exact .inl ⟨_, _, rfl, rfl⟩
  | [], _ :: _ | _ :: _, [] => exact absurd hlength (by simp)
  | [_], _ :: _ :: _ | _ :: _ :: _, [_] => exact absurd hlength (by simp)

/-- The renumbering of items without repetitions gives each its place. -/
theorem map_placed_zipIdx (remaining : List ListItem) (start : Nat)
    (hnodup : (remaining.map ListItem.itemId).Nodup) :
    remaining.map (placed remaining start) =
      (remaining.zipIdx start).map fun p => (moveItem p.2).apply p.1 := by
  induction remaining generalizing start with
  | nil => rfl
  | cons x rest ih =>
    rw [List.map_cons, List.nodup_cons] at hnodup
    have hhead : placed (x :: rest) start x = (moveItem start).apply x := by
      rw [placed, if_pos rfl]
      exact placed_of_not_mem hnodup.1
    have htail : rest.map (placed (x :: rest) start) = rest.map (placed rest (start + 1)) := by
      refine List.map_congr_left fun i hi => ?_
      have hne : i.itemId ≠ x.itemId := fun heq => hnodup.1 (heq ▸ List.mem_map_of_mem hi)
      rw [placed, if_neg hne]
    rw [List.map_cons, hhead, htail, ih _ hnodup.2, List.zipIdx_cons, List.map_cons]

theorem entries_renumbered (entries : List Memory.MemoryItem) :
    (Memory.renumbered entries).map Memory.MemoryItem.entry =
      ((entries.map Memory.MemoryItem.entry).zipIdx 1).map
        fun p => { p.1 with position := p.2 } := by
  rw [Memory.renumbered, List.zipIdx_map, List.map_map, List.map_map]
  rfl

/-- The items of a list that a removal keeps. -/
theorem itemsOf_kept (hids : rows.map ListItem.itemId = r.itemIds)
    (hrows : ∀ i ∈ rows, db.itemIn row.listId i.itemId = some i) :
    (∀ L, L ≠ row.listId → { db with items := db.items.delete fun i => r.itemIds.contains i.itemId
      }.itemsOf L = db.itemsOf L) ∧
    ({ db with items := db.items.delete fun i => r.itemIds.contains i.itemId }.itemsOf
      row.listId) = (db.itemsOf row.listId).filter fun i => !r.itemIds.contains i.itemId := by
  refine ⟨fun L hL => ?_, itemsOf_delete _⟩
  rw [itemsOf_delete]
  refine List.filter_eq_self.2 fun i hi => ?_
  rw [Bool.not_eq_true', ← Bool.not_eq_true, List.contains_eq_mem, decide_eq_true_eq, ← hids]
  intro hmem
  obtain ⟨j, hj, hkey⟩ := List.mem_map.1 hmem
  obtain ⟨hfind, hlist⟩ := itemIn_eq_some.1 (hrows j hj)
  obtain ⟨hfind', hlist'⟩ := itemIn_eq_some.1 (mem_itemsOf.1 hi)
  rw [hkey, hfind'] at hfind
  obtain rfl := Option.some.inj hfind
  exact hL (hlist'.symm.trans hlist)

theorem removeItems_alike (hcounted : db.Counted row.listId)
    (hcollection : l.collection = (db.collection row).rename ρ)
    (hlist : strip r.listId = row.listId) (hids : rows.map ListItem.itemId = r.itemIds)
    (hrows : ∀ i ∈ rows, db.itemIn row.listId i.itemId = some i)
    (hrows' : rows'.map Memory.MemoryItem.entry = rows.map fun i => i.entry.rename ρ) :
    BothOr (MutatedAlike ρ db row l .removeItems) (r.removeItems rows db)
      (Memory.removeItems { r with listId := ρ r.listId, itemIds := r.itemIds.map ρ } l rows') := by
  have hlength := congrArg List.length hrows'
  rw [List.length_map, List.length_map] at hlength
  obtain ⟨hothers, hkept⟩ := itemsOf_kept hids hrows
  have hkeptEntries : (l.entries.filter fun i => !(r.itemIds.map ρ).contains i.itemId).map
      Memory.MemoryItem.entry = ((db.itemsOf row.listId).filter
        fun i => !r.itemIds.contains i.itemId).map fun i => i.entry.rename ρ := by
    have hmemory : (l.entries.filter fun i => !(r.itemIds.map ρ).contains i.itemId).map
        Memory.MemoryItem.entry = (l.entries.map Memory.MemoryItem.entry).filter
          fun e => !(r.itemIds.map ρ).contains e.itemId := by
      rw [List.filter_map]
      rfl
    have hfits : (fun e : ItemEntry => !(r.itemIds.map ρ).contains e.itemId) ∘
        (fun i : ListItem => i.entry.rename ρ) = fun i => !r.itemIds.contains i.itemId := by
      funext i
      rw [Bool.eq_iff_iff]
      simp [ItemEntry.rename, ListItem.entry]
    rw [hmemory, entries_eq hcollection, List.filter_map, hfits]
  have hcount := congrArg List.length hkeptEntries
  rw [List.length_map, List.length_map] at hcount
  have hsorted : ({ db with items := db.items.delete fun i => r.itemIds.contains i.itemId }.itemsOf
      (strip r.listId)).insertionSort ListItem.positionOrder =
      { db with items := db.items.delete fun i => r.itemIds.contains i.itemId }.itemsOf
        row.listId := by
    rw [hlist]
    refine sorted_of_pairwise ?_
    rw [hkept]
    have hbefore : ((db.itemsOf row.listId).map ListItem.position).Pairwise (· < ·) := by
      rw [hcounted]
      exact pairwise_countFrom 1 _
    exact hbefore.sublist (List.filter_sublist.map ListItem.position)
  rw [MutateRequest.removeItems, Memory.removeItems, hlength]
  refine bothOr_require rfl ?_
  dsimp only
  rw [hsorted]
  refine .inr ⟨_, _, rfl, rfl, ⟨rfl, fun version => ?_, rfl, fun _ => rfl, fun _ L hL => ?_,
    fun _ => ?_, fun h => by cases h⟩⟩
  · have hentries : rows'.map Memory.MemoryItem.entry =
        (rows.map ListItem.entry).map (ItemEntry.rename ρ) := by
      rw [hrows', List.map_map]
      rfl
    rw [hkept]
    dsimp only
    rw [hentries, hcount]
    rfl
  · refine Eq.trans ?_ (hothers L hL)
    exact @itemsOf_renumber_of_ne
      { db with items := db.items.delete fun i => r.itemIds.contains i.itemId } row.listId L hL
  · rw [entries_renumbered, hkeptEntries]
    have hplaced := @itemsOf_renumber
      { db with items := db.items.delete fun i => r.itemIds.contains i.itemId } row.listId
      ({ db with items := db.items.delete fun i => r.itemIds.contains i.itemId }.itemsOf row.listId)
    rw [map_placed_zipIdx _ _ (nodup_itemsOf _ _), hkept] at hplaced
    dsimp only at hplaced ⊢
    rw [hkept, hplaced, List.zipIdx_map, List.map_map, List.map_map]
    rfl

theorem itemsOf_deleteOf (db : ListDb) (L : Str) :
    { db with items := db.items.delete fun i => decide (i.listId = L) }.itemsOf L = [] ∧
      ∀ other, other ≠ L → { db with items := db.items.delete fun i => decide (i.listId = L)
        }.itemsOf other = db.itemsOf other := by
  constructor
  · rw [itemsOf_delete]
    refine List.filter_eq_nil_iff.2 fun i hi => ?_
    have hlist : i.listId = L := of_decide_eq_true (List.mem_filter.1 hi).2
    simp [hlist]
  · intro other hne
    rw [itemsOf_delete]
    refine List.filter_eq_self.2 fun i hi => ?_
    have hlist : i.listId = other := of_decide_eq_true (List.mem_filter.1 hi).2
    simp [hlist, hne]

theorem length_entries (hcollection : l.collection = (db.collection row).rename ρ) :
    l.entries.length = (db.itemsOf row.listId).length := by
  have hentries := congrArg List.length (entries_eq hcollection)
  rwa [List.length_map, List.length_map] at hentries

theorem clear_alike [PythonText] (hcollection : l.collection = (db.collection row).rename ρ)
    (hlist : strip r.listId = row.listId) :
    BothOr (MutatedAlike ρ db row l .clearCollection) (Mutation.clearCollection.apply r rows db)
      (Memory.applyMutation .clearCollection
        { r with listId := ρ r.listId, itemIds := r.itemIds.map ρ } l rows') := by
  obtain ⟨hgone, hothers⟩ := itemsOf_deleteOf db row.listId
  have hcount := length_entries hcollection
  refine .inr ⟨_, _, rfl, rfl, ⟨?_, fun version => ?_, rfl, fun _ => rfl, fun _ => ?_, fun _ => ?_,
    nofun⟩⟩
  · rw [MutateRequest.clearCollection, hlist, hcount]
  · rw [MutateRequest.clearCollection, hlist, hcount]
    rfl
  · rw [MutateRequest.clearCollection, hlist]
    exact hothers
  · rw [MutateRequest.clearCollection, hlist]
    dsimp only
    rw [hgone]
    rfl

/-- The lists without the one that is deleted. -/
theorem collections_deleteOf (db : ListDb) {owner : Str} (howned : db.owned owner L = some row) :
    ({ db with
        items := db.items.delete fun i => decide (i.listId = L)
        lists := db.lists.delete fun l' => l'.ownerUserId = owner && l'.listId = L }
      : ListDb).collections = db.collections.filter fun c => c.listId ≠ L := by
  obtain ⟨hfind, howner⟩ := owned_eq_some.1 howned
  obtain ⟨-, hothers⟩ := itemsOf_deleteOf db L
  rw [ListDb.collections, ListDb.collections, List.filter_map]
  have hfits : db.lists.rows.filter (fun l' => !(decide (l'.ownerUserId = owner) &&
      decide (l'.listId = L))) =
      db.lists.rows.filter ((fun c : Collection => decide (c.listId ≠ L)) ∘ db.collection) := by
    refine List.filter_congr fun l' hl' => ?_
    have hid : (db.collection l').listId = l'.listId := rfl
    rw [Bool.eq_iff_iff]
    simp only [Function.comp_apply, hid, Bool.not_eq_true', Bool.and_eq_false_iff,
      decide_eq_false_iff_not, decide_eq_true_eq]
    constructor
    · rintro (hother | hother)
      · intro heq
        have hsame : l' = row := db.lists.key_injective hl' (Table.mem_of_find? hfind)
          (heq.trans (Table.key_of_find? hfind).symm)
        exact hother (hsame ▸ howner)
      · exact hother
    · exact .inr
  rw [← hfits]
  refine List.map_congr_left fun l' hl' => ?_
  have hleft : l' ∈ db.lists.rows.filter
      ((fun c : Collection => decide (c.listId ≠ L)) ∘ db.collection) := hfits ▸ hl'
  have hne : l'.listId ≠ L := of_decide_eq_true (List.mem_filter.1 hleft).2
  rw [ListDb.collection, ListDb.collection]
  congr 1
  exact congrArg (List.map ListItem.entry) (hothers l'.listId hne)

theorem delete_alike [PythonText] (hcollection : l.collection = (db.collection row).rename ρ)
    (hlist : strip r.listId = row.listId)
    (howned : db.owned (normalized r.ownerUserId) row.listId = some row) :
    BothOr (MutatedAlike ρ db row l .deleteCollection) (Mutation.deleteCollection.apply r rows db)
      (Memory.applyMutation .deleteCollection
        { r with listId := ρ r.listId, itemIds := r.itemIds.map ρ } l rows') := by
  have hcount := length_entries hcollection
  obtain ⟨hfind, howner⟩ := owned_eq_some.1 howned
  have hdeleted : (db.lists.count fun l' => l'.ownerUserId = normalized r.ownerUserId &&
      l'.listId = row.listId) = 1 := by
    have hkey := (@Table.count_key _ _ _ _ db.lists row.listId
      fun l' => decide (l'.ownerUserId = normalized r.ownerUserId)).2
        ⟨row, hfind, decide_eq_true howner⟩
    simpa [Bool.and_comm] using hkey
  refine .inr ⟨_, _, rfl, rfl, ⟨?_, fun version => ?_, rfl, fun hne => absurd rfl hne,
    fun hne => absurd rfl hne, fun hne => absurd rfl hne, fun _ => ?_⟩⟩
  · rw [MutateRequest.deleteCollection, hlist, hdeleted]
    rfl
  · rw [MutateRequest.deleteCollection, hlist, hdeleted, hcount]
    rfl
  · rw [MutateRequest.deleteCollection, hlist]
    exact collections_deleteOf db howned

/-- A mutation is carried out alike by both storages. -/
theorem apply_alike [PythonText] (m : Mutation) (hcounted : db.Counted row.listId)
    (hcollection : l.collection = (db.collection row).rename ρ)
    (hlist : strip r.listId = row.listId)
    (howned : db.owned (normalized r.ownerUserId) row.listId = some row)
    (hids : rows.map ListItem.itemId = r.itemIds)
    (hrows : ∀ i ∈ rows, db.itemIn row.listId i.itemId = some i)
    (hrows' : rows'.map Memory.MemoryItem.entry = rows.map fun i => i.entry.rename ρ) :
    BothOr (MutatedAlike ρ db row l m) (m.apply r rows db)
      (Memory.applyMutation m { r with listId := ρ r.listId, itemIds := r.itemIds.map ρ } l
        rows') := by
  cases m with
  | updateItem => exact updateItem_alike hcollection hrows hrows'
  | removeItems => exact removeItems_alike hcounted hcollection hlist hids hrows hrows'
  | clearCollection => exact clear_alike hcollection hlist
  | deleteCollection => exact delete_alike hcollection hlist howned

end Mutations

section Mutate

variable {ρ : Str ≃ Str} {db : ListDb} {m : Memory.MemoryStore} {row : ListRow}
  {l : Memory.MemoryList} {r : MutateRequest} {action : Mutation} {p : Mutated}
  {p' : Memory.Mutated} {used : List Str}

/-- The lists after a mutation that has moved the version, or has not. -/
theorem collections_moved (halike : MutatedAlike ρ db row l action p p') (hsame : Same ρ db m)
    (hl : l ∈ m.lists.rows) (hcollection : l.collection = (db.collection row).rename ρ)
    (haction : action ≠ .deleteCollection) (moves : Bool) (ts : Str) :
    (m.revise l p'.1 (if moves = true then some ts else none)).collections =
      ((if moves = true then p.1.touchList row.listId ts else p.1).collections).map
        (Collection.rename ρ) := by
  have hid : l.listId = ρ row.listId := congrArg Collection.listId hcollection
  have hafter := collections_of_items (halike.lists haction) (halike.others haction)
  have hentries : (p'.1 l.entries).map Memory.MemoryItem.entry =
      ((p.1.itemsOf row.listId).map ListItem.entry).map (ItemEntry.rename ρ) := by
    rw [halike.entries haction, List.map_map]
    rfl
  rw [collections_revise hsame.nodup_listIds hl, hid, hsame.collections, hentries]
  cases moves with
  | true =>
    rw [if_pos rfl, if_pos rfl, collections_touchList, hafter, revised_revised]
    · refine (map_rename_revised (fun c => ?_) _).symm
      rfl
    · exact fun _ => rfl
  | false =>
    rw [if_neg Bool.false_ne_true, if_neg Bool.false_ne_true, hafter]
    refine (map_rename_revised (fun c => ?_) _).symm
    rfl

theorem collections_removed (hsame : Same ρ db m) (hl : l ∈ m.lists.rows)
    (hcollection : l.collection = (db.collection row).rename ρ) :
    ({ m with lists := m.lists.delete fun l' => l'.key = l.key } : Memory.MemoryStore).collections =
      (db.collections.filter fun c => c.listId ≠ row.listId).map (Collection.rename ρ) := by
  have hid : l.listId = ρ row.listId := congrArg Collection.listId hcollection
  have hfits : m.lists.rows.filter (fun l' => !decide (l'.key = l.key)) =
      m.lists.rows.filter ((fun c : Collection => decide (c.listId ≠ ρ row.listId)) ∘
        Memory.MemoryList.collection) := by
    refine List.filter_congr fun l' hl' => ?_
    have hlistId : l'.collection.listId = l'.listId := rfl
    rw [Bool.eq_iff_iff]
    simp only [Function.comp_apply, hlistId, Bool.not_eq_true', decide_eq_false_iff_not,
      decide_eq_true_eq, ← hid]
    refine not_congr ⟨fun hkey => congrArg _ (m.lists.key_injective hl' hl hkey), fun heq => ?_⟩
    exact congrArg _ (List.inj_on_of_nodup_map hsame.nodup_listIds hl' hl heq)
  have hrename : (fun c : Collection => decide (c.listId ≠ ρ row.listId)) ∘ Collection.rename ρ =
      fun c => decide (c.listId ≠ row.listId) := by
    funext c
    exact decide_eq_decide.2 (not_congr ρ.injective.eq_iff)
  have hmemory : ({ m with lists := m.lists.delete fun l' => l'.key = l.key } :
      Memory.MemoryStore).collections =
      (m.lists.rows.filter fun l' => !decide (l'.key = l.key)).map
        Memory.MemoryList.collection := rfl
  rw [hmemory, hfits, ← List.filter_map, ← Memory.MemoryStore.collections, hsame.collections,
    List.filter_map, hrename]

/-- A mutation, recorded by both storages. -/
theorem record_mutation_matches [PythonText] (halike : MutatedAlike ρ db row l action p p')
    (hsame : Same ρ db m) (hl : l ∈ m.lists.rows)
    (hcollection : l.collection = (db.collection row).rename ρ) (hid : row.listId = r.listId)
    (hop : db.operations.find? r.operationId = none) :
    Matches ρ
      (do
        let recorded ← (if (p.2.2 && decide (action ≠ .deleteCollection)) = true then
            p.1.touchList r.listId r.timestamp else p.1).record {
          operationId := r.operationId, ownerUserId := normalized r.ownerUserId
          action := .mutation action, targetRef := r.listId, argumentsHash := r.argumentsHash
          result := p.2.1 (if (p.2.2 && decide (action ≠ .deleteCollection)) = true then
            r.timestamp else r.expectedVersion)
          createdAt := r.timestamp }
        .ok (.mutation (p.2.1 (if (p.2.2 && decide (action ≠ .deleteCollection)) = true then
            r.timestamp else r.expectedVersion)) false, recorded))
      (.ok (.mutation (p'.2.1 (if (p'.2.2 && decide (action ≠ .deleteCollection)) = true then
            r.timestamp else r.expectedVersion)) false,
        (if action = .deleteCollection then
            { m with lists := m.lists.delete fun l' => l'.key = l.key }
          else m.revise l p'.1 (if (p'.2.2 && decide (action ≠ .deleteCollection)) = true then
            some r.timestamp else none)).record {
          operationId := r.operationId, ownerUserId := normalized r.ownerUserId
          action := .mutation action, targetRef := ρ r.listId, argumentsHash := r.argumentsHash
          result := p'.2.1 (if (p'.2.2 && decide (action ≠ .deleteCollection)) = true then
            r.timestamp else r.expectedVersion) })) := by
  rw [halike.changed]
  generalize hmoves : (p.2.2 && decide (action ≠ .deleteCollection)) = moves
  generalize hversion : (if moves = true then r.timestamp else r.expectedVersion) = version
  have hafter : (if action = .deleteCollection then
      { m with lists := m.lists.delete fun l' => l'.key = l.key }
      else m.revise l p'.1 (if moves = true then some r.timestamp else none)).collections =
      ((if moves = true then p.1.touchList r.listId r.timestamp else p.1).collections).map
        (Collection.rename ρ) := by
    by_cases haction : action = .deleteCollection
    · have hstays : moves = false := by simp [← hmoves, haction]
      rw [if_pos haction, hstays, if_neg Bool.false_ne_true, halike.deleted haction]
      exact collections_removed hsame hl hcollection
    · rw [if_neg haction, ← hid]
      exact collections_moved halike hsame hl hcollection haction moves r.timestamp
  have hrecords : (if action = .deleteCollection then
      { m with lists := m.lists.delete fun l' => l'.key = l.key }
      else m.revise l p'.1 (if moves = true then some r.timestamp else none)).operations.rows =
      db.operations.rows.map (ListOperation.rename ρ) := by
    rw [← hsame.operations]
    split <;> rfl
  have hsource : (if moves = true then p.1.touchList r.listId r.timestamp else p.1).operations =
      db.operations := by
    rw [← halike.operations]
    split <;> rfl
  obtain ⟨operations, hinsert, hrecord⟩ := @record_of_none
    (if moves = true then p.1.touchList r.listId r.timestamp else p.1) {
      operationId := r.operationId, ownerUserId := normalized r.ownerUserId
      action := .mutation action, targetRef := r.listId, argumentsHash := r.argumentsHash
      result := p.2.1 version, createdAt := r.timestamp } (hsource ▸ hop)
  rw [hsource] at hinsert
  have hboth := Same.record hafter hrecords hinsert
  rw [hrecord, halike.result]
  exact ⟨⟨rfl, rfl⟩, hboth⟩

theorem mutate_matches [PythonText] (hsame : Same ρ db m) (hsound : Sound used db)
    (hnormal : (StorageCall.typed (.mutate r)).Normal) :
    Matches ρ (mutateListWithOperation r db) (Memory.mutateCollection
      { r with listId := ρ r.listId, itemIds := r.itemIds.map ρ } m) := by
  obtain ⟨howner, hlist⟩ := hnormal
  rw [mutateListWithOperation, Memory.mutateCollection]
  dsimp only
  cases Mutation.ofText? r.action with
  | none => exact trivial
  | some action =>
    dsimp only
    rw [mutateList, ownerKey_of_normal howner, hlist]
    rw [hsame.recorded (fun op => op.ownerUserId = normalized r.ownerUserId &&
      op.action = .mutation action && op.targetRef = r.listId &&
      op.argumentsHash = r.argumentsHash)
      fun op => congrArg₂ and (congrArg₂ and rfl (decide_eq_decide.2 ρ.injective.eq_iff)) rfl]
    rcases recorded_cases db r.operationId fun op => op.ownerUserId = normalized r.ownerUserId &&
      op.action = .mutation action && op.targetRef = r.listId &&
      op.argumentsHash = r.argumentsHash with ⟨e, he⟩ | ⟨hop, hnone⟩ | ⟨op, hop, -, hsome⟩
    · rw [he]
      exact trivial
    · rw [hnone]
      simp only [ok_bind, Except.map, Option.map_none]
      rcases hsame.byId_cases (normalized r.ownerUserId) r.listId with
        ⟨howned, hbyId⟩ | ⟨row, l, howned, hbyId, hcollection⟩
      · rw [howned, hbyId]
        exact trivial
      · have hid : row.listId = r.listId := Table.key_of_find? (owned_eq_some.1 howned).1
        have hversion : l.updatedAt = row.updatedAt := congrArg Collection.updatedAt hcollection
        rw [howned, hbyId]
        dsimp only
        rw [hversion, ← hid]
        refine Matches.require rfl fun _ => Matches.require ?_ fun hnodup => ?_
        · exact decide_eq_decide.2 (List.nodup_map_iff ρ.injective).symm
        refine Matches.bind (mapM_items hcollection r.itemIds) fun rows rows' hrows hrows' => ?_
        obtain ⟨hids, hall⟩ := mapM_itemIn hrows
        refine Matches.bind (apply_alike action (hsound.counted _) hcollection (hlist.trans hid.symm)
          (hid ▸ howned) hids hall hrows') fun p p' hp halike => ?_
        rw [hid]
        exact record_mutation_matches halike hsame (mem_of_byId hbyId).1 hcollection hid hop
    · rw [hsome]
      exact ⟨⟨rfl, rfl⟩, hsame⟩

end Mutate

end HardyAI.Lists
