import HardyAI.Foundation.JsonText
import HardyAI.Lists.Collections
import Mathlib.Data.List.Dedup

/-! One typed call on both storages: where they answer alike, they answer with outcomes that
agree and hold the same lists afterwards. -/

open Foundation Foundation.Json Foundation.Trace

namespace HardyAI.Lists

section Matching

/-- Both storages carry out a call, with outcomes that agree, and hold the same lists after it,
or both reject it. -/
def Matches (ρ : Str ≃ Str) : Except PyError (Outcome × ListDb) →
    Except PyError (Outcome × Memory.MemoryStore) → Prop
  | .ok p, .ok p' => Outcome.Agrees ρ p.1 p'.1 ∧ Same ρ p.2 p'.2
  | .error _, .error _ => True
  | .ok _, .error _ | .error _, .ok _ => False

variable {ρ : Str ≃ Str} {db db' : ListDb} {m : Memory.MemoryStore} {used : List Str}

theorem Matches.require {condition condition' : Bool} {e e' : PyError}
    {rest : Unit → Except PyError (Outcome × ListDb)}
    {rest' : Unit → Except PyError (Outcome × Memory.MemoryStore)}
    (hsame : condition = condition')
    (hrest : condition = true → Matches ρ (rest ()) (rest' ())) :
    Matches ρ (require condition e >>= rest) (require condition' e' >>= rest') := by
  subst hsame
  cases condition with
  | false => exact trivial
  | true => exact hrest rfl

theorem ok_bind {β γ : Type} (b : β) (rest : β → Except PyError γ) :
    ((Except.ok b : Except PyError β) >>= rest) = rest b := rfl

theorem recorded_cases (db : ListDb) (id : Str) (same : ListOperation → Bool) :
    (∃ e, db.recorded id same = .error e) ∨
      (db.operations.find? id = none ∧ db.recorded id same = .ok none) ∨
      ∃ op, db.operations.find? id = some op ∧ same op = true ∧
        db.recorded id same = .ok (some op) := by
  cases hop : db.operations.find? id with
  | none => exact .inr (.inl ⟨rfl, recorded_of_none hop⟩)
  | some op =>
    rw [recorded_of_find? hop]
    by_cases hsame : same op = true
    · exact .inr (.inr ⟨op, rfl, hsame, if_pos hsame⟩)
    · exact .inl ⟨_, if_neg hsame⟩

/-- A record with a new identifier is inserted. -/
theorem record_of_none {op : ListOperation} (h : db.operations.find? op.operationId = none) :
    ∃ operations, db.operations.insert? op = some operations ∧
      db.record op = .ok { db with operations } := by
  cases hinsert : db.operations.insert? op with
  | none =>
    obtain ⟨old, hold⟩ := Table.insert?_eq_none.1 hinsert
    rw [h] at hold
    cases hold
  | some operations =>
    refine ⟨operations, rfl, ?_⟩
    rw [ListDb.record, hinsert]

variable [PythonText]

theorem ownerKey_of_normal {s : Str} (h : NormalText s) : Memory.ownerKey s = normalized s := by
  rw [Memory.ownerKey, if_neg (by rw [h.eq]; exact h.ne)]

end Matching

section Create

variable [PythonText] {ρ : Str ≃ Str} {db db' : ListDb} {m : Memory.MemoryStore} {used : List Str}

omit [PythonText] in
/-- A new list on both sides. -/
theorem create_new (row : ListRow) (hsame : Same ρ db m) (hsound : Sound used db)
    (hfresh : row.listId ∉ used) (hnamed : db.named row.ownerUserId row.listNameNormalized = none) :
    ∃ lists lists', db.findOrInsert row = .ok (row, true, { db with lists }) ∧
      m.lists.find? (row.ownerUserId, row.listNameNormalized) = none ∧
      m.lists.insert? ⟨row.ownerUserId, row.listNameNormalized, ρ row.listId, row.updatedAt, []⟩ =
        some lists' ∧
      ({ m with lists := lists' } : Memory.MemoryStore).collections =
        ({ db with lists } : ListDb).collections.map (Collection.rename ρ) := by
  have hkey : db.lists.find? row.listId = none :=
    Table.find?_eq_none.2 fun l hl heq => hfresh (heq ▸ hsound.listIds l hl)
  have hapart : ∀ old ∈ db.lists.rows, row.clash old = false := by
    intro old hold
    rw [ListDb.named, List.find?_eq_none] at hnamed
    have hnot := hnamed old hold
    simpa [ListRow.clash] using hnot
  have hnone : m.lists.find? (row.ownerUserId, row.listNameNormalized) = none := by
    have hboth := hsame.named row.ownerUserId row.listNameNormalized
    rwa [hnamed, Option.map_none, Option.map_eq_none_iff] at hboth
  obtain ⟨lists, hlists⟩ := Option.ne_none_iff_exists'.1 (Table.insertApart?_ne_none hkey hapart)
  cases hmemory : m.lists.insert?
    ⟨row.ownerUserId, row.listNameNormalized, ρ row.listId, row.updatedAt, []⟩ with
  | none =>
    obtain ⟨old, hold⟩ := Table.insert?_eq_none.1 hmemory
    have hfound : m.lists.find? (row.ownerUserId, row.listNameNormalized) = some old := hold
    rw [hnone] at hfound
    cases hfound
  | some lists' =>
    refine ⟨lists, lists', ?_, hnone, rfl, ?_⟩
    · rw [ListDb.findOrInsert, hnamed]
      simp only [hlists]
    · have hempty : db.itemsOf row.listId = [] := by
        refine List.filter_eq_nil_iff.2 fun i hi hlist => ?_
        have hfound := hsound.referenced i hi
        rw [of_decide_eq_true hlist, hkey] at hfound
        cases hfound
      have hold : m.lists.rows.map Memory.MemoryList.collection =
          (db.lists.rows.map db.collection).map (Collection.rename ρ) := hsame.collections
      have hnew : Memory.MemoryList.collection
          ⟨row.ownerUserId, row.listNameNormalized, ρ row.listId, row.updatedAt, []⟩ =
          (db.collection row).rename ρ := by
        rw [ListDb.collection, hempty]
        rfl
      rw [Memory.MemoryStore.collections, (Table.insert?_eq_some hmemory).2, List.map_append, hold,
        ListDb.collections, (Table.insert?_eq_some (Table.insertApart?_eq_some.1 hlists).2).2,
        List.map_append, List.map_append, List.map_singleton, hnew]
      rfl

theorem create_matches {freshId : Str} {r : CreateRequest} (hsame : Same ρ db m)
    (hsound : Sound used db) (hfresh : freshId ∉ used)
    (hnormal : (StorageCall.typed (.create freshId r)).Normal)
    (halike : (StorageCall.typed (.create freshId r)).Alike db) :
    Matches ρ (createListWithOperation freshId r db) (Memory.createCollection (ρ freshId) r m) := by
  obtain ⟨howner, hname⟩ := hnormal
  rw [createListWithOperation, Memory.createCollection, ownerKey_of_normal howner]
  dsimp only
  rw [hsame.recorded (fun op => op.ownerUserId = normalized r.ownerUserId &&
    op.action = .createCollection && op.argumentsHash = r.argumentsHash) fun _ => rfl]
  rcases recorded_cases db r.operationId fun op => op.ownerUserId = normalized r.ownerUserId &&
    op.action = .createCollection && op.argumentsHash = r.argumentsHash with
    ⟨e, he⟩ | ⟨hop, hnone⟩ | ⟨op, hop, -, hsome⟩
  · rw [he]
    exact trivial
  · rw [hnone]
    have hnamed : db.named (normalized r.ownerUserId) (normalized r.listNameNormalized) = none := by
      rcases halike with hfound | hnamed
      · rw [hop] at hfound
        cases hfound
      · exact hnamed
    obtain ⟨lists, lists', hinsert, hfind, hmemory, hcollections⟩ :=
      create_new (r.row freshId) hsame hsound hfresh hnamed
    have hfind' : m.lists.find? (normalized r.ownerUserId, r.listNameNormalized) = none :=
      hname ▸ hfind
    have hmemory' : m.lists.insert? ⟨normalized r.ownerUserId, r.listNameNormalized, ρ freshId,
        r.timestamp, []⟩ = some lists' := by
      have hrow := hmemory
      simp only [CreateRequest.row, hname] at hrow
      exact hrow
    obtain ⟨operations, hoperations, hrecord⟩ := @record_of_none { db with lists }
      { operationId := r.operationId, ownerUserId := normalized r.ownerUserId
        action := .createCollection, targetRef := freshId, argumentsHash := r.argumentsHash
        result := .created true freshId, createdAt := r.timestamp } hop
    have hafter := Same.record hcollections hsame.operations hoperations
    have hid : (r.row freshId).listId = freshId := rfl
    simp only [ok_bind, hinsert, hid, hrecord, Except.map, Option.map_none, hfind', hmemory',
      Option.getD_none, Option.getD_some, Option.isNone_none, if_true]
    exact ⟨⟨rfl, rfl, hname.symm, rfl, rfl, rfl⟩, hafter⟩
  · rw [hsome]
    rcases hsame.byId_cases (normalized r.ownerUserId) op.targetRef with
      ⟨howned, hbyId⟩ | ⟨row, l, howned, hbyId, hcollection⟩
    · simp only [ok_bind, Except.map, Option.map_some, howned, ListOperation.rename, hbyId]
      exact trivial
    · simp only [ok_bind, Except.map, Option.map_some, howned, ListOperation.rename, hbyId]
      have hid : l.listId = ρ row.listId := congrArg Collection.listId hcollection
      have hown : l.owner = row.ownerUserId := congrArg Collection.ownerUserId hcollection
      have hlistName : l.name = row.listNameNormalized := congrArg Collection.listName hcollection
      have hversion : l.updatedAt = row.updatedAt := congrArg Collection.updatedAt hcollection
      have hcreated : (op.result.rename ρ).wasCreated = op.result.wasCreated := by
        cases op.result <;> rfl
      exact ⟨⟨hid, hown, hlistName, hversion, hcreated, rfl⟩, hsame⟩

end Create

section OperationKeys

theorem colon_not_mem_natText (n : Nat) : codePoint ':' ∉ natText n := by
  intro hmem
  have hnumeral : isNumeral (codePoint ':') = true := isNumeral_natText hmem
  exact absurd hnumeral (by decide)

/-- The operation identifier of an item names the operation and the place of the item. -/
theorem itemOperation_injective {op op' : Str} {k k' : Nat}
    (h : op ++ text ":" ++ natText k = op' ++ text ":" ++ natText k') : op = op' ∧ k = k' := by
  rw [List.append_assoc, List.append_assoc] at h
  obtain ⟨hop, hk⟩ := append_cons_inj (colon_not_mem_natText k) (colon_not_mem_natText k') h
  exact ⟨hop, natText_injective hk⟩

end OperationKeys

section Insertions

variable {db : ListDb}

/-- No unique column of the items is shared. -/
def ListItem.Apart (i j : ListItem) : Prop := i.itemId ≠ j.itemId ∧ i.operationId ≠ j.operationId

theorem foldlM_insertItem_ok {added : List ListItem}
    (hnew : ∀ old ∈ db.items.rows, ∀ i ∈ added, old.Apart i)
    (hapart : added.Pairwise ListItem.Apart)
    (hlist : ∀ i ∈ added, (db.lists.find? i.listId).isSome = true) :
    ∃ db', added.foldlM ListDb.insertItem db = .ok db' := by
  induction added generalizing db with
  | nil => exact ⟨db, rfl⟩
  | cons i added ih =>
    rw [List.pairwise_cons] at hapart
    have hkey : db.items.find? i.itemId = none :=
      Table.find?_eq_none.2 fun old hold => (hnew old hold i List.mem_cons_self).1
    have hclash : ∀ old ∈ db.items.rows, i.clash old = false := by
      intro old hold
      simp [ListItem.clash, (hnew old hold i List.mem_cons_self).2]
    obtain ⟨items, hitems⟩ := Option.ne_none_iff_exists'.1 (Table.insertApart?_ne_none hkey hclash)
    have hinsert : db.insertItem i = .ok { db with items } :=
      insertItem_eq_ok.2 ⟨items, hitems, hlist i List.mem_cons_self, rfl⟩
    rw [List.foldlM_cons, hinsert, ok_bind]
    refine ih (fun old hold j hj => ?_) hapart.2 fun j hj => hlist j (List.mem_cons_of_mem _ hj)
    rw [rows_insertItem hinsert] at hold
    rcases List.mem_append.1 hold with hold | hold
    · exact hnew old hold j (List.mem_cons_of_mem _ hj)
    · obtain rfl := List.mem_singleton.1 hold
      exact hapart.1 j hj

end Insertions

section Replay

variable {ρ : Str ≃ Str} {db : ListDb} {m : Memory.MemoryStore} {used : List Str}
  {op : ListOperation} {L target : Str} {existing : Nat} {ids : List Str}

theorem forall_of_mapM_eq_ok {β γ : Type} {f : β → Except PyError γ} {xs : List β} {ys : List γ}
    (h : xs.mapM f = .ok ys) : ∀ x ∈ xs, ∃ y, f x = .ok y := by
  induction xs generalizing ys with
  | nil => exact fun _ hx => absurd hx List.not_mem_nil
  | cons x xs ih =>
    simp only [List.mapM_cons, bind_eq_ok] at h
    obtain ⟨y, hy, ys', hys, -⟩ := h
    intro x' hx'
    rcases List.mem_cons.1 hx' with rfl | hx'
    · exact ⟨y, hy⟩
    · exact ih hys x' hx'

/-- The items of an addition that are still there. -/
def ListDb.left (db : ListDb) (L : Str) (ids : List Str) : List ListItem :=
  (db.itemsOf L).filter fun i => ids.contains i.itemId

theorem mem_left {i : ListItem} :
    i ∈ db.left L ids ↔ db.itemIn L i.itemId = some i ∧ i.itemId ∈ ids := by
  rw [ListDb.left, List.mem_filter, ListDb.itemsOf, List.mem_filter, itemIn_eq_some]
  constructor
  · rintro ⟨⟨hi, hlist⟩, hid⟩
    exact ⟨⟨Table.find?_of_mem hi, of_decide_eq_true hlist⟩, List.contains_iff_mem.1 hid⟩
  · rintro ⟨⟨hfind, hlist⟩, hid⟩
    exact ⟨⟨Table.mem_of_find? hfind, decide_eq_true hlist⟩, List.contains_iff_mem.2 hid⟩

theorem mapM_left {left : List ListItem} (h : ∀ i ∈ left, db.itemIn L i.itemId = some i) :
    (left.map ListItem.itemId).mapM (fun id => match db.itemIn L id with
      | none => Except.error (PyError.valueError "list_operation_replay_target_missing")
      | some i => .ok i.entry) = .ok (left.map ListItem.entry) := by
  induction left with
  | nil => rfl
  | cons i left ih =>
    rw [List.map_cons, List.mapM_cons, h i List.mem_cons_self]
    dsimp only
    rw [ok_bind, ih fun j hj => h j (List.mem_cons_of_mem _ hj)]
    rfl

/-- A recorded addition is repeated where all its items are still there. -/
theorem replayItems_eq (hresult : op.result = .added existing ids target) (hnodup : ids.Nodup)
    (hsub : ((db.left L ids).map ListItem.itemId).Sublist ids) :
    replayItems db L op = if (db.left L ids).length = ids.length then
        .ok ((db.left L ids).map ListItem.entry, existing)
      else .error (.valueError "list_operation_replay_target_missing") := by
  have hleft : ∀ i ∈ db.left L ids, db.itemIn L i.itemId = some i := fun i hi => (mem_left.1 hi).1
  split
  · next hlength =>
    have hall : (db.left L ids).map ListItem.itemId = ids :=
      hsub.eq_of_length (by rw [List.length_map, hlength])
    have hrows := mapM_left hleft
    rw [hall] at hrows
    rw [replayItems, hresult]
    exact bind_eq_ok.2 ⟨_, hrows, rfl⟩
  · next hlength =>
    rcases replayItems_cases hresult L with ⟨rows, hrows, -⟩ | ⟨herror, -⟩
    · exfalso
      have hmap := hrows
      rw [replayItems, hresult] at hmap
      simp only [bind_eq_ok] at hmap
      obtain ⟨rows', hmap, -⟩ := hmap
      have hsubset : ids ⊆ (db.left L ids).map ListItem.itemId := by
        intro id hid
        obtain ⟨e, he⟩ := forall_of_mapM_eq_ok hmap id hid
        cases hitem : db.itemIn L id with
        | none =>
          rw [hitem] at he
          cases he
        | some i =>
          have hkey : i.itemId = id := Table.key_of_find? (itemIn_eq_some.1 hitem).1
          subst hkey
          exact List.mem_map_of_mem (mem_left.2 ⟨hitem, hid⟩)
      have hle := (List.subperm_of_subset hnodup hsubset).length_le
      have hge := hsub.length_le
      rw [List.length_map] at hle hge
      omega
    · exact herror

/-- The same of the other storage, which looks for the identifiers in the list. -/
theorem replayEntries_eq {l : Memory.MemoryList} {row : ListRow}
    (hcollection : l.collection = (db.collection row).rename ρ)
    (hresult : op.result = .added existing ids target) (hnodup : ids.Nodup) :
    Memory.replayEntries l (op.rename ρ) =
      if (db.left row.listId ids).length = ids.length then
        .ok (((db.left row.listId ids).map ListItem.entry).map (ItemEntry.rename ρ), existing)
      else .error (.valueError "list_operation_replay_target_missing") := by
  have hentries : l.entries.map Memory.MemoryItem.entry =
      ((db.itemsOf row.listId).map ListItem.entry).map (ItemEntry.rename ρ) :=
    congrArg Collection.entries hcollection
  have hleft : (l.entries.filter fun i => (ids.map ρ).contains i.itemId).map
      Memory.MemoryItem.entry =
        ((db.left row.listId ids).map ListItem.entry).map (ItemEntry.rename ρ) := by
    have hmemory : (l.entries.filter fun i => (ids.map ρ).contains i.itemId).map
        Memory.MemoryItem.entry = (l.entries.map Memory.MemoryItem.entry).filter
          fun e => (ids.map ρ).contains e.itemId := by
      rw [List.filter_map]
      rfl
    have hfits : ((fun e : ItemEntry => (ids.map ρ).contains e.itemId) ∘ ItemEntry.rename ρ) ∘
        ListItem.entry = fun i => ids.contains i.itemId := by
      funext i
      rw [Bool.eq_iff_iff]
      simp [ItemEntry.rename, ListItem.entry]
    rw [hmemory, hentries, List.filter_map, List.filter_map, hfits, ListDb.left]
  have hlength := congrArg List.length hleft
  rw [List.length_map, List.length_map, List.length_map] at hlength
  have hdedup : (ids.map ρ).dedup.length = ids.length := by
    rw [List.Nodup.dedup (hnodup.map ρ.injective), List.length_map]
  rw [Memory.replayEntries, ListOperation.rename, hresult]
  simp only [OperationResult.rename, hlength, hdedup, hleft, ne_eq, ite_not]

end Replay

section Add

variable [PythonText] {ρ : Str ≃ Str} {db db' : ListDb} {m : Memory.MemoryStore} {used : List Str}
  {fresh : Nat → Str} {r : AddRequest}

omit [PythonText] in
/-- The items that are left of an addition whose list is gone. -/
theorem left_eq_nil {op : ListOperation} {owner : Str} (hsound : Sound used db)
    (hop : op ∈ db.operations.rows) (howner : op.ownerUserId = owner)
    (hgone : db.owned owner op.targetRef = none) (ids : List Str) :
    db.left op.targetRef ids = [] := by
  refine List.eq_nil_iff_forall_not_mem.2 fun i hi => ?_
  obtain ⟨hfind, hlist⟩ := itemIn_eq_some.1 (mem_left.1 hi).1
  have hfound := hsound.referenced i (Table.mem_of_find? hfind)
  rw [hlist] at hfound
  obtain ⟨l, hl⟩ := Option.isSome_iff_exists.1 hfound
  have howned : db.owned owner op.targetRef = some l :=
    owned_eq_some.2 ⟨hl, (hsound.owners op hop l hl).trans howner⟩
  rw [hgone] at howned
  cases howned

omit [PythonText] in
/-- What both storages answer to a repeated addition. -/
theorem add_replay_matches {op : ListOperation} (hsame : Same ρ db m) (hsound : Sound used db)
    (hop : op ∈ db.operations.rows) (haction : op.action = .addItems)
    (halike : ∀ existing listId, op.result = .added existing [] listId →
      (db.owned op.ownerUserId op.targetRef).isSome = true) :
    Matches ρ
      (replayItems db op.targetRef op >>= fun p => .ok (.items op.targetRef p.1 p.2 true, db))
      (match m.byId op.ownerUserId (ρ op.targetRef) with
        | none => .error (.valueError "list_operation_replay_target_missing")
        | some l => Memory.replayEntries l (op.rename ρ) >>= fun p =>
            .ok (.items (ρ op.targetRef) p.1 p.2 true, m)) := by
  obtain ⟨existing, ids, hresult, hnodup, -, hsub, hlist⟩ := (hsound.added op hop haction).result
  have hleft : ((db.left op.targetRef ids).map ListItem.itemId).Sublist ids := by
    have hrows : (db.left op.targetRef ids).Sublist
        (db.items.rows.filter fun i => ids.contains i.itemId) :=
      List.filter_sublist.filter _
    have hmap := hrows.map ListItem.itemId
    rw [show (db.items.rows.filter fun i => ids.contains i.itemId).map ListItem.itemId =
      (db.items.rows.map ListItem.itemId).filter fun id => ids.contains id by
        rw [List.filter_map]; rfl] at hmap
    exact hmap.trans hsub
  rw [replayItems_eq hresult hnodup hleft]
  rcases hsame.byId_cases op.ownerUserId op.targetRef with
    ⟨howned, hbyId⟩ | ⟨row, l, howned, hbyId, hcollection⟩
  · have hids : ids ≠ [] := by
      rintro rfl
      have hfound := halike existing _ hresult
      rw [howned] at hfound
      cases hfound
    have hlength : ¬(db.left op.targetRef ids).length = ids.length := by
      rw [left_eq_nil hsound hop rfl howned, List.length_nil]
      exact fun heq => hids (List.length_eq_zero_iff.1 heq.symm)
    rw [hbyId, if_neg hlength]
    exact trivial
  · have hid : row.listId = op.targetRef := Table.key_of_find? (owned_eq_some.1 howned).1
    rw [hbyId]
    dsimp only
    rw [replayEntries_eq hcollection hresult hnodup, hid]
    split
    · exact ⟨⟨rfl, rfl, rfl, rfl⟩, hsame⟩
    · exact trivial

omit [PythonText] in
theorem entries_added {existing : Nat} (hlist : strip r.listId = r.listId) :
    (r.itemNames.zipIdx.map fun p => Memory.newItem (fun k => ρ (fresh k))
        { r with listId := ρ r.listId } existing p.2 p.1).map Memory.MemoryItem.entry =
      ((r.itemNames.zipIdx.map fun p => r.item fresh ((existing : Int) + 1) p.2 p.1).map
        ListItem.entry).map (ItemEntry.rename ρ) := by
  rw [List.map_map, List.map_map, List.map_map]
  refine List.map_congr_left fun p _ => ?_
  have hposition : (existing : Int) + p.2 + 1 = existing + 1 + p.2 := by omega
  simp only [Function.comp_apply, Memory.MemoryItem.entry, Memory.newItem, ListItem.entry,
    AddRequest.item, ItemEntry.rename, hlist, hposition]

omit [PythonText] in
theorem nodup_operationIds {next : Int} :
    ((r.itemNames.zipIdx.map fun p => r.item fresh next p.2 p.1).map
      ListItem.operationId).Nodup := by
  have hoperation : (ListItem.operationId ∘ fun p : Str × Nat => r.item fresh next p.2 p.1) =
      (fun k => some (r.operationId ++ text ":" ++ natText (k + 1))) ∘ Prod.snd := rfl
  rw [List.map_map, hoperation, ← List.map_map, List.zipIdx_map_snd]
  refine List.Nodup.map (fun k k' heq => ?_) List.nodup_range'
  have hplace := (itemOperation_injective (Option.some.inj heq)).2
  omega

omit [PythonText] in
/-- The new items share no unique column with an old one, or with each other. -/
theorem apart_added {next : Int} (hsound : Sound used db)
    (hfresh : ∀ id ∈ (TypedCall.add fresh r).generated, id ∉ used)
    (hnodup : (TypedCall.add fresh r).generated.Nodup)
    (hop : db.operations.find? r.operationId = none) :
    (∀ old ∈ db.items.rows, ∀ i ∈ r.itemNames.zipIdx.map (fun p => r.item fresh next p.2 p.1),
      old.Apart i) ∧
    (r.itemNames.zipIdx.map fun p => r.item fresh next p.2 p.1).Pairwise ListItem.Apart := by
  have hids : (r.itemNames.zipIdx.map fun p => r.item fresh next p.2 p.1).map ListItem.itemId =
      (TypedCall.add fresh r).generated := itemIds_added
  constructor
  · intro old hold i hi
    have hmem : i.itemId ∈ (TypedCall.add fresh r).generated := hids ▸ List.mem_map_of_mem hi
    refine ⟨fun heq => hfresh _ hmem (heq ▸ hsound.itemIds old hold), fun heq => ?_⟩
    obtain ⟨p, -, rfl⟩ := List.mem_map.1 hi
    obtain ⟨op, k, hoperation, hfound⟩ := hsound.itemOps old hold
    rw [hoperation] at heq
    obtain ⟨rfl, -⟩ := itemOperation_injective (Option.some.inj heq)
    rw [hop] at hfound
    cases hfound
  · have hkeys : (r.itemNames.zipIdx.map fun p => r.item fresh next p.2 p.1).Pairwise
        fun i j => i.itemId ≠ j.itemId := List.pairwise_map.1 (hids ▸ hnodup)
    have hoperations : (r.itemNames.zipIdx.map fun p => r.item fresh next p.2 p.1).Pairwise
        fun i j => i.operationId ≠ j.operationId := List.pairwise_map.1 nodup_operationIds
    exact hkeys.and hoperations

omit [PythonText] in
/-- The items of the lists after an addition to one of them. -/
theorem itemsOf_added {listId : Str} {added : List ListItem}
    (hadded : ∀ i ∈ added, i.listId = listId) (hrows : db'.items.rows = db.items.rows ++ added) :
    db'.itemsOf listId = db.itemsOf listId ++ added ∧
      ∀ L, L ≠ listId → db'.itemsOf L = db.itemsOf L := by
  constructor
  · rw [itemsOf_append hrows,
      List.filter_eq_self.2 fun i hi => decide_eq_true (hadded i hi)]
  · intro L hL
    rw [itemsOf_append hrows, List.filter_eq_nil_iff.2, List.append_nil]
    intro i hi hlist
    exact hL ((of_decide_eq_true hlist).symm.trans (hadded i hi))

omit [PythonText] in
theorem same_added {row : ListRow} {l : Memory.MemoryList} {added : List ListItem}
    {added' : List Memory.MemoryItem} {listId ts : Str} (hsame : Same ρ db m)
    (hl : l ∈ m.lists.rows) (hcollection : l.collection = (db.collection row).rename ρ)
    (hid : row.listId = listId) (hadded : ∀ i ∈ added, i.listId = listId)
    (hentries : added'.map Memory.MemoryItem.entry =
      (added.map ListItem.entry).map (ItemEntry.rename ρ))
    (hinserted : added.foldlM ListDb.insertItem db = .ok db') :
    (m.revise l (· ++ added') (some ts)).collections =
      (db'.touchList listId ts).collections.map (Collection.rename ρ) := by
  obtain ⟨hlists, -, -⟩ := foldlM_insertItem hadded hinserted
  obtain ⟨hitems, hothers⟩ := itemsOf_added hadded (rows_foldlM_insertItem hinserted)
  have hlistId : l.listId = ρ listId := hid ▸ congrArg Collection.listId hcollection
  have hold : l.entries.map Memory.MemoryItem.entry =
      ((db.itemsOf listId).map ListItem.entry).map (ItemEntry.rename ρ) :=
    hid ▸ congrArg Collection.entries hcollection
  rw [collections_revise hsame.nodup_listIds hl, hlistId, hsame.collections, collections_touchList,
    collections_of_items hlists hothers, revised_revised]
  · refine (map_rename_revised (fun c => ?_) _).symm
    rw [List.map_append, hold, hentries, hitems, List.map_append]
    simp only [Collection.rename, List.map_append, Option.getD_some]
  · exact fun _ => rfl

theorem add_new_matches {row : ListRow} {l : Memory.MemoryList} (hsame : Same ρ db m)
    (hsound : Sound used db) (hfresh : ∀ id ∈ (TypedCall.add fresh r).generated, id ∉ used)
    (hnodup : (TypedCall.add fresh r).generated.Nodup) (hlist : strip r.listId = r.listId)
    (hop : db.operations.find? r.operationId = none)
    (howned : db.owned (normalized r.ownerUserId) r.listId = some row)
    (hbyId : m.byId (normalized r.ownerUserId) (ρ r.listId) = some l)
    (hcollection : l.collection = (db.collection row).rename ρ) :
    Matches ρ (do
      require (some row).isSome (.valueError "list_collection_not_authorized")
      let inserted ← (r.itemNames.zipIdx.map fun p =>
        r.item fresh (maxPosition (db.itemsOf r.listId) + 1) p.2 p.1).foldlM ListDb.insertItem db
      let recorded ← (inserted.touchList r.listId r.timestamp).record {
        operationId := r.operationId, ownerUserId := normalized r.ownerUserId, action := .addItems
        targetRef := r.listId, argumentsHash := r.argumentsHash
        result := .added (db.itemsOf r.listId).length ((r.itemNames.zipIdx.map fun p =>
          r.item fresh (maxPosition (db.itemsOf r.listId) + 1) p.2 p.1).map ListItem.itemId) r.listId
        createdAt := r.timestamp }
      .ok (.items r.listId ((r.itemNames.zipIdx.map fun p =>
          r.item fresh (maxPosition (db.itemsOf r.listId) + 1) p.2 p.1).map ListItem.entry)
        (db.itemsOf r.listId).length false, recorded))
      (.ok (.items (ρ r.listId) ((r.itemNames.zipIdx.map fun p =>
          Memory.newItem (fun k => ρ (fresh k)) { r with listId := ρ r.listId } l.entries.length
            p.2 p.1).map Memory.MemoryItem.entry) l.entries.length false,
        (m.revise l (· ++ r.itemNames.zipIdx.map fun p =>
          Memory.newItem (fun k => ρ (fresh k)) { r with listId := ρ r.listId } l.entries.length
            p.2 p.1) (some r.timestamp)).record {
          operationId := r.operationId, ownerUserId := normalized r.ownerUserId, action := .addItems
          targetRef := ρ r.listId, argumentsHash := r.argumentsHash
          result := .added l.entries.length ((r.itemNames.zipIdx.map fun p =>
            Memory.newItem (fun k => ρ (fresh k)) { r with listId := ρ r.listId } l.entries.length
              p.2 p.1).map Memory.MemoryItem.itemId) (ρ r.listId) })) := by
  obtain ⟨hfind, hown⟩ := owned_eq_some.1 howned
  have hid : row.listId = r.listId := Table.key_of_find? hfind
  have hlength : l.entries.length = (db.itemsOf r.listId).length := by
    have hentries := congrArg (fun c => c.entries.length) hcollection
    simpa [Memory.MemoryList.collection, Collection.rename, ListDb.collection, hid] using hentries
  rw [maxPosition_of_counted (hsound.counted r.listId), hlength]
  have hentries := @entries_added ρ fresh r (db.itemsOf r.listId).length hlist
  generalize hadded : (r.itemNames.zipIdx.map fun p =>
    r.item fresh ((db.itemsOf r.listId).length + 1) p.2 p.1) = added at hentries ⊢
  generalize (r.itemNames.zipIdx.map fun p => Memory.newItem (fun k => ρ (fresh k))
    { r with listId := ρ r.listId } (db.itemsOf r.listId).length p.2 p.1) = added' at hentries ⊢
  have hlistIds : ∀ i ∈ added, i.listId = r.listId := by
    intro i hi
    rw [← hadded] at hi
    obtain ⟨p, -, rfl⟩ := List.mem_map.1 hi
    exact hlist
  obtain ⟨hnew, hapart⟩ := @apart_added db used fresh r ((db.itemsOf r.listId).length + 1)
    hsound hfresh hnodup hop
  rw [hadded] at hnew hapart
  obtain ⟨inserted, hinserted⟩ := foldlM_insertItem_ok hnew hapart fun i hi => by
    rw [hlistIds i hi, hfind]
    rfl
  obtain ⟨-, hoperations, -⟩ := foldlM_insertItem hlistIds hinserted
  have hids : added'.map Memory.MemoryItem.itemId = (added.map ListItem.itemId).map ρ := by
    have hmap := congrArg (List.map ItemEntry.itemId) hentries
    simpa [Function.comp_def, Memory.MemoryItem.entry, ListItem.entry, ItemEntry.rename] using hmap
  have hnone : (inserted.touchList r.listId r.timestamp).operations.find? r.operationId = none := by
    rw [show (inserted.touchList r.listId r.timestamp).operations = db.operations from hoperations]
    exact hop
  obtain ⟨operations, hinsert, hrecord⟩ := @record_of_none
    (inserted.touchList r.listId r.timestamp) {
      operationId := r.operationId, ownerUserId := normalized r.ownerUserId, action := .addItems
      targetRef := r.listId, argumentsHash := r.argumentsHash
      result := .added (db.itemsOf r.listId).length (added.map ListItem.itemId) r.listId
      createdAt := r.timestamp } hnone
  have hafter := Same.record
    (same_added hsame (mem_of_byId hbyId).1 hcollection hid hlistIds hentries hinserted)
    ((show (m.revise l (· ++ added') (some r.timestamp)).operations.rows = _ from
      hsame.operations).trans (congrArg (fun t => t.rows.map (ListOperation.rename ρ))
        hoperations.symm)) hinsert
  rw [hinserted]
  simp only [ok_bind, hrecord, Option.isSome_some]
  rw [hids]
  exact ⟨⟨rfl, hentries, rfl, rfl⟩, hafter⟩

theorem add_matches (hsame : Same ρ db m) (hsound : Sound used db)
    (hfresh : ∀ id ∈ (TypedCall.add fresh r).generated, id ∉ used)
    (hnodup : (TypedCall.add fresh r).generated.Nodup)
    (hnormal : (StorageCall.typed (.add fresh r)).Normal)
    (halike : (StorageCall.typed (.add fresh r)).Alike db) :
    Matches ρ (addListItemsWithOperation fresh r db)
      (Memory.addItems (fun k => ρ (fresh k)) { r with listId := ρ r.listId } m) := by
  obtain ⟨howner, hlist⟩ := hnormal
  rw [addListItemsWithOperation, Memory.addItems, ownerKey_of_normal howner]
  dsimp only
  rw [hlist]
  rw [hsame.recorded (fun op => op.ownerUserId = normalized r.ownerUserId &&
    op.action = .addItems && op.targetRef = r.listId && op.argumentsHash = r.argumentsHash)
    fun op => congrArg₂ and (congrArg₂ and rfl (decide_eq_decide.2 ρ.injective.eq_iff)) rfl]
  rcases recorded_cases db r.operationId fun op => op.ownerUserId = normalized r.ownerUserId &&
    op.action = .addItems && op.targetRef = r.listId && op.argumentsHash = r.argumentsHash with
    ⟨e, he⟩ | ⟨hop, hnone⟩ | ⟨op, hop, hmatch, hsome⟩
  · rw [he]
    exact trivial
  · rw [hnone]
    simp only [ok_bind, Except.map, Option.map_none]
    rcases hsame.byId_cases (normalized r.ownerUserId) r.listId with
      ⟨howned, hbyId⟩ | ⟨row, l, howned, hbyId, hcollection⟩
    · rw [howned, hbyId]
      exact trivial
    · rw [howned, hbyId]
      exact add_new_matches hsame hsound hfresh hnodup hlist hop howned hbyId hcollection
  · rw [hsome]
    simp only [Bool.and_eq_true, decide_eq_true_eq] at hmatch
    obtain ⟨⟨⟨hown, haction⟩, htarget⟩, hhash⟩ := hmatch
    have hidentity : op.identity = (TypedCall.add fresh r).identity := by
      simp [ListOperation.identity, TypedCall.identity, hown, haction, htarget, hhash, hlist]
    have hreplay := add_replay_matches hsame hsound (Table.mem_of_find? hop) haction
      fun existing listId hresult => by
        have hfound := halike op existing listId hop hidentity hresult
        rwa [hown, htarget, ← hlist]
    rw [hown, htarget] at hreplay
    exact hreplay

end Add

end HardyAI.Lists
