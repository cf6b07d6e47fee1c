import HardyAI.Lists.TypedInvariant

/-! What both storages keep of their lists, and how the writes of each change it. -/

open Foundation Foundation.Json Foundation.Trace

namespace HardyAI.Lists

section Collections

/-- What both storages keep of a list. -/
structure Collection where
  listId : Str
  ownerUserId : Str
  listName : Str
  updatedAt : Str
  entries : List ItemEntry

def ListDb.collection (db : ListDb) (l : ListRow) : Collection where
  listId := l.listId
  ownerUserId := l.ownerUserId
  listName := l.listNameNormalized
  updatedAt := l.updatedAt
  entries := (db.itemsOf l.listId).map ListItem.entry

def ListDb.collections (db : ListDb) : List Collection := db.lists.rows.map db.collection

def Memory.MemoryList.collection (l : Memory.MemoryList) : Collection where
  listId := l.listId
  ownerUserId := l.owner
  listName := l.name
  updatedAt := l.updatedAt
  entries := l.entries.map Memory.MemoryItem.entry

def Memory.MemoryStore.collections (m : Memory.MemoryStore) : List Collection :=
  m.lists.rows.map Memory.MemoryList.collection

def Collection.rename (ρ : Str ≃ Str) (c : Collection) : Collection :=
  { c with listId := ρ c.listId, entries := c.entries.map (ItemEntry.rename ρ) }

/-- The record of the same operation in the other storage. -/
def ListOperation.rename (ρ : Str ≃ Str) (op : ListOperation) : Memory.MemoryOperation where
  operationId := op.operationId
  ownerUserId := op.ownerUserId
  action := op.action
  targetRef := ρ op.targetRef
  argumentsHash := op.argumentsHash
  result := op.result.rename ρ

/-- Both storages hold the same lists and records, up to the renaming. -/
structure Same (ρ : Str ≃ Str) (db : ListDb) (m : Memory.MemoryStore) : Prop where
  collections : m.collections = db.collections.map (Collection.rename ρ)
  operations : m.operations.rows = db.operations.rows.map (ListOperation.rename ρ)

/-- The change `f` of the collection of one identifier. -/
def revised (listId : Str) (f : Collection → Collection) (cs : List Collection) :
    List Collection :=
  cs.map fun c => if c.listId = listId then f c else c

variable {ρ : Str ≃ Str} {db db' : ListDb} {m : Memory.MemoryStore} {L owner name : Str}

theorem same_empty : Same ρ ∅ ∅ := ⟨rfl, rfl⟩

theorem revised_revised (f g : Collection → Collection) (hf : ∀ c, (f c).listId = c.listId)
    (cs : List Collection) : revised L g (revised L f cs) = revised L (fun c => g (f c)) cs := by
  rw [revised, revised, List.map_map, revised]
  refine List.map_congr_left fun c _ => ?_
  by_cases hc : c.listId = L <;> simp [hc, hf]

theorem map_rename_revised {f f' : Collection → Collection}
    (hf : ∀ c, (f c).rename ρ = f' (c.rename ρ)) (cs : List Collection) :
    (revised L f cs).map (Collection.rename ρ) =
      revised (ρ L) f' (cs.map (Collection.rename ρ)) := by
  rw [revised, revised, List.map_map, List.map_map]
  refine List.map_congr_left fun c _ => ?_
  by_cases hc : c.listId = L
  · have hid : (c.rename ρ).listId = ρ L := congrArg ρ hc
    simp only [Function.comp_apply, hc, hid, if_true, hf]
  · have hne : ¬(c.rename ρ).listId = ρ L := fun heq => hc (ρ.injective heq)
    simp [hc, hne]

end Collections

section Lookups

variable {ρ : Str ≃ Str} {db db' : ListDb} {m : Memory.MemoryStore} {L owner name id : Str}

/-- A list of an owner is the first row that fits, as no other row has its identifier. -/
theorem owned_eq_find? (db : ListDb) (owner L : Str) :
    db.owned owner L = db.lists.rows.find? fun l => l.ownerUserId = owner && l.listId = L := by
  cases hfind : db.lists.rows.find? fun l => l.ownerUserId = owner && l.listId = L with
  | none =>
    rw [List.find?_eq_none] at hfind
    rw [Option.eq_none_iff_forall_ne_some]
    intro l hl
    obtain ⟨hl, howner⟩ := owned_eq_some.1 hl
    have hnot := hfind l (Table.mem_of_find? hl)
    simp [howner, Table.key_of_find? hl] at hnot
  | some l =>
    have hfits := List.find?_some hfind
    simp only [Bool.and_eq_true, decide_eq_true_eq] at hfits
    exact owned_eq_some.2
      ⟨Table.find?_eq_some.2 ⟨List.mem_of_find?_eq_some hfind, hfits.2⟩, hfits.1⟩

theorem Same.find?_operations (h : Same ρ db m) (id : Str) :
    m.operations.find? id = (db.operations.find? id).map (ListOperation.rename ρ) := by
  rw [Table.find?, h.operations, List.find?_map]
  rfl

theorem Same.recorded (h : Same ρ db m) (same : ListOperation → Bool)
    {same' : Memory.MemoryOperation → Bool} (hsame : ∀ op, same' (op.rename ρ) = same op) :
    m.recorded id same' = (db.recorded id same).map (Option.map (ListOperation.rename ρ)) := by
  rw [Memory.MemoryStore.recorded, h.find?_operations, ListDb.recorded]
  cases db.operations.find? id with
  | none => rfl
  | some op =>
    simp only [Option.map_some, hsame]
    split <;> rfl

theorem Same.byId (h : Same ρ db m) (owner L : Str) :
    (m.byId owner (ρ L)).map Memory.MemoryList.collection =
      (db.owned owner L).map fun l => (db.collection l).rename ρ := by
  have hmemory : (m.byId owner (ρ L)).map Memory.MemoryList.collection =
      m.collections.find? fun c => c.ownerUserId = owner && c.listId = ρ L := by
    rw [Memory.MemoryStore.collections, List.find?_map]
    rfl
  have hfits : ((fun c : Collection => decide (c.ownerUserId = owner) && decide (c.listId = ρ L)) ∘
      Collection.rename ρ) ∘ db.collection =
      fun l => decide (l.ownerUserId = owner) && decide (l.listId = L) := by
    funext l
    simp [Collection.rename, ListDb.collection]
  rw [hmemory, h.collections, ListDb.collections, List.find?_map, List.find?_map, hfits,
    owned_eq_find?, Option.map_map]
  rfl

theorem Same.named (h : Same ρ db m) (owner name : Str) :
    (m.lists.find? (owner, name)).map Memory.MemoryList.collection =
      (db.named owner name).map fun l => (db.collection l).rename ρ := by
  have hkey : (fun l : Memory.MemoryList => decide (l.key = (owner, name))) =
      (fun c : Collection => decide (c.ownerUserId = owner) && decide (c.listName = name)) ∘
        Memory.MemoryList.collection := by
    funext l
    simp only [Function.comp_apply, Memory.MemoryList.key, Memory.MemoryList.collection,
      Prod.mk.injEq, Bool.decide_and]
    exact congrArg₂ and (decide_eq_decide.2 Iff.rfl) (decide_eq_decide.2 Iff.rfl)
  rw [Table.find?, hkey, ← List.find?_map, ← Memory.MemoryStore.collections, h.collections,
    ListDb.collections, List.find?_map, List.find?_map, Option.map_map, ListDb.named]
  rfl

/-- The two storages find a list or find none. -/
theorem Same.byId_cases (h : Same ρ db m) (owner L : Str) :
    (db.owned owner L = none ∧ m.byId owner (ρ L) = none) ∨
      ∃ row l, db.owned owner L = some row ∧ m.byId owner (ρ L) = some l ∧
        l.collection = (db.collection row).rename ρ := by
  have hboth := h.byId owner L
  cases howned : db.owned owner L with
  | none =>
    rw [howned, Option.map_none, Option.map_eq_none_iff] at hboth
    exact .inl ⟨rfl, hboth⟩
  | some row =>
    rw [howned, Option.map_some, Option.map_eq_some_iff] at hboth
    obtain ⟨l, hl, hcollection⟩ := hboth
    exact .inr ⟨row, l, rfl, hl, hcollection⟩

theorem Same.nodup_listIds (h : Same ρ db m) :
    (m.lists.rows.map Memory.MemoryList.listId).Nodup := by
  have hmemory : m.lists.rows.map Memory.MemoryList.listId =
      m.collections.map Collection.listId := by
    rw [Memory.MemoryStore.collections, List.map_map]
    rfl
  have hids : m.lists.rows.map Memory.MemoryList.listId =
      (db.lists.rows.map ListRow.listId).map ρ := by
    rw [hmemory, h.collections, ListDb.collections, List.map_map, List.map_map, List.map_map]
    rfl
  rw [hids]
  exact db.lists.unique.map ρ.injective

theorem mem_of_byId {l : Memory.MemoryList} (h : m.byId owner L = some l) :
    l ∈ m.lists.rows ∧ l.owner = owner ∧ l.listId = L := by
  have hfits := List.find?_some h
  simp only [Bool.and_eq_true, decide_eq_true_eq] at hfits
  exact ⟨List.mem_of_find?_eq_some h, hfits⟩

end Lookups

section Writes

variable {ρ : Str ≃ Str} {db db' : ListDb} {m : Memory.MemoryStore} {L ts : Str}

theorem collections_touchList : (db.touchList L ts).collections =
    revised L (fun c => { c with updatedAt := ts }) db.collections := by
  rw [ListDb.collections, ListDb.touchList, Table.updateKey, Table.update, List.map_map, revised,
    ListDb.collections, List.map_map]
  refine List.map_congr_left fun l _ => ?_
  by_cases hl : l.listId = L <;> simp [hl, ListDb.collection, touch] <;> rfl

/-- The collections after a change of the items of one list. -/
theorem collections_of_items (hlists : db'.lists = db.lists)
    (hothers : ∀ L', L' ≠ L → db'.itemsOf L' = db.itemsOf L') :
    db'.collections = revised L
      (fun c => { c with entries := (db'.itemsOf L).map ListItem.entry }) db.collections := by
  rw [ListDb.collections, hlists, revised, ListDb.collections, List.map_map]
  refine List.map_congr_left fun l _ => ?_
  by_cases hl : l.listId = L
  · simp [hl, ListDb.collection]
  · simp [hl, ListDb.collection, hothers l.listId hl]

theorem collections_revise {l : Memory.MemoryList} {entries : List Memory.MemoryItem →
    List Memory.MemoryItem} {updatedAt : Option Str}
    (hnodup : (m.lists.rows.map Memory.MemoryList.listId).Nodup) (hl : l ∈ m.lists.rows) :
    (m.revise l entries updatedAt).collections = revised l.listId (fun c => { c with
      entries := (entries l.entries).map Memory.MemoryItem.entry
      updatedAt := updatedAt.getD c.updatedAt }) m.collections := by
  rw [Memory.MemoryStore.collections, Memory.MemoryStore.revise, Table.updateKey, Table.update,
    List.map_map, revised, Memory.MemoryStore.collections, List.map_map]
  refine List.map_congr_left fun l' hl' => ?_
  by_cases hkey : l'.key = l.key
  · obtain rfl := m.lists.key_injective hl' hl hkey
    simp [Memory.MemoryList.collection, Memory.revise]
  · have hid : l'.listId ≠ l.listId := fun heq =>
      hkey (congrArg _ (List.inj_on_of_nodup_map hnodup hl' hl heq))
    simp [hkey, hid, Memory.MemoryList.collection]

/-- The records after a new one. -/
theorem Same.record {db₀ : ListDb} {op : ListOperation} {operations : Table ListOperation.operationId}
    (hcollections : m.collections = db.collections.map (Collection.rename ρ))
    (hoperations : m.operations.rows = db₀.operations.rows.map (ListOperation.rename ρ))
    (hinsert : db₀.operations.insert? op = some operations) :
    Same ρ { db with operations } (m.record (op.rename ρ)) := by
  obtain ⟨hfresh, hrows⟩ := Table.insert?_eq_some_iff.1 hinsert
  have hnew : ∀ old ∈ m.operations.rows, old.operationId ≠ (op.rename ρ).operationId := by
    intro old hold
    rw [hoperations] at hold
    obtain ⟨op', hop', rfl⟩ := List.mem_map.1 hold
    exact hfresh op' hop'
  cases hmemory : m.operations.insert? (op.rename ρ) with
  | none =>
    obtain ⟨old, hold⟩ := Table.insert?_eq_none.1 hmemory
    exact absurd (Table.key_of_find? hold) (hnew old (Table.mem_of_find? hold))
  | some operations' =>
    constructor
    · exact hcollections
    · rw [Memory.MemoryStore.record, hmemory, Option.getD_some,
        (Table.insert?_eq_some hmemory).2, hoperations, hrows, List.map_append]
      rfl

end Writes

end HardyAI.Lists
