import HardyAI.Lists.Positions

/-! The repetitions of typed operations: what a recorded operation answers to a later call
with its identifier. -/

open Foundation Foundation.Json Foundation.Trace

namespace HardyAI.Lists

section Identity

/-- What a repetition has to share with the first call. A creation names no list, and the text
of an action that is not allowed names no action. -/
structure Identity where
  owner : Str
  action : Option ListAction
  target : Option Str
  argumentsHash : Str
  deriving DecidableEq

def ListOperation.identity (op : ListOperation) : Identity where
  owner := op.ownerUserId
  action := some op.action
  target := if op.action = .createCollection then none else some op.targetRef
  argumentsHash := op.argumentsHash

def TypedCall.identity [PythonText] : TypedCall → Identity
  | .create _ r => ⟨normalized r.ownerUserId, some .createCollection, none, r.argumentsHash⟩
  | .add _ r => ⟨normalized r.ownerUserId, some .addItems, some (strip r.listId), r.argumentsHash⟩
  | .mutate r => ⟨normalized r.ownerUserId, (Mutation.ofText? r.action).map .mutation,
      some (strip r.listId), r.argumentsHash⟩

def Outcome.idempotentReplay : Outcome → Bool
  | .collection _ _ replay => replay
  | .items _ _ _ replay => replay
  | .mutation _ replay => replay

end Identity

section Recorded

/-- What the record of an operation answers. -/
def replay (op : ListOperation) (db : ListDb) : Except PyError Outcome :=
  match op.action with
  | .createCollection =>
    match db.owned op.ownerUserId op.targetRef with
    | none => .error (.valueError "list_operation_replay_target_missing")
    | some row => .ok (.collection row op.result.wasCreated true)
  | .addItems => (replayItems db op.targetRef op).map fun p => .items op.targetRef p.1 p.2 true
  | .mutation _ => .ok (.mutation op.result true)

variable [PythonText] {db db' : ListDb} {c : TypedCall} {op : ListOperation} {o : Outcome}

omit [PythonText] in
theorem recorded_of_find? {operationId : Str} {same : ListOperation → Bool}
    (hop : db.operations.find? operationId = some op) :
    db.recorded operationId same = if same op then .ok (some op)
      else .error (.valueError "list_operation_id_conflict") := by
  rw [ListDb.recorded, hop]

/-- A call with a recorded identifier is answered from the record or refused. -/
theorem run_recorded (hop : db.operations.find? c.operationId = some op) :
    (op.identity = c.identity → c.run db = (replay op db).map fun o => (o, db)) ∧
      (op.identity ≠ c.identity → ∃ e, c.run db = .error e) := by
  cases c with
  | create freshId r =>
    have hfind : db.operations.find? r.operationId = some op := hop
    have hrun : (TypedCall.create freshId r).run db = createListWithOperation freshId r db := rfl
    rw [hrun, createListWithOperation, recorded_of_find? hfind]
    constructor
    · intro hsame
      have haction : op.action = .createCollection :=
        Option.some.inj (congrArg Identity.action hsame)
      have howner : op.ownerUserId = normalized r.ownerUserId := congrArg Identity.owner hsame
      have hhash : op.argumentsHash = r.argumentsHash := congrArg Identity.argumentsHash hsame
      simp only [howner, haction, hhash, decide_true, Bool.and_self, if_true, replay, bind,
        Except.bind]
      cases db.owned (normalized r.ownerUserId) op.targetRef <;> rfl
    · intro hother
      rw [if_neg]
      · exact ⟨_, rfl⟩
      · intro hsame
        simp only [Bool.and_eq_true, decide_eq_true_eq] at hsame
        obtain ⟨⟨howner, haction⟩, hhash⟩ := hsame
        exact hother (by simp [ListOperation.identity, TypedCall.identity, howner, haction, hhash])
  | add fresh r =>
    have hfind : db.operations.find? r.operationId = some op := hop
    have hrun : (TypedCall.add fresh r).run db = addListItemsWithOperation fresh r db := rfl
    rw [hrun, addListItemsWithOperation, recorded_of_find? hfind]
    constructor
    · intro hsame
      have haction : op.action = .addItems := Option.some.inj (congrArg Identity.action hsame)
      have howner : op.ownerUserId = normalized r.ownerUserId := congrArg Identity.owner hsame
      have hhash : op.argumentsHash = r.argumentsHash := congrArg Identity.argumentsHash hsame
      have htarget : op.targetRef = strip r.listId := by
        simpa [ListOperation.identity, TypedCall.identity, haction] using
          congrArg Identity.target hsame
      simp only [howner, haction, hhash, htarget, decide_true, Bool.and_self, if_true, replay,
        bind, Except.bind]
      cases replayItems db (strip r.listId) op <;> rfl
    · intro hother
      rw [if_neg]
      · exact ⟨_, rfl⟩
      · intro hsame
        simp only [Bool.and_eq_true, decide_eq_true_eq] at hsame
        obtain ⟨⟨⟨howner, haction⟩, htarget⟩, hhash⟩ := hsame
        exact hother (by
          simp [ListOperation.identity, TypedCall.identity, howner, haction, htarget, hhash])
  | mutate r =>
    have hrun : (TypedCall.mutate r).run db = mutateListWithOperation r db := rfl
    rw [hrun, mutateListWithOperation]
    cases hmutation : Mutation.ofText? r.action with
    | none =>
      refine ⟨fun hsame => ?_, fun _ => ⟨_, rfl⟩⟩
      have haction : some op.action = (Mutation.ofText? r.action).map .mutation :=
        congrArg Identity.action hsame
      rw [hmutation] at haction
      cases haction
    | some m =>
      have hfind : db.operations.find? r.operationId = some op := hop
      have hidentity : (TypedCall.mutate r).identity = ⟨normalized r.ownerUserId,
          some (.mutation m), some (strip r.listId), r.argumentsHash⟩ := by
        rw [TypedCall.identity, hmutation, Option.map_some]
      rw [hidentity]
      dsimp only
      rw [mutateList, recorded_of_find? hfind]
      constructor
      · intro hsame
        have haction : op.action = .mutation m :=
          Option.some.inj (congrArg Identity.action hsame)
        have howner : op.ownerUserId = normalized r.ownerUserId := congrArg Identity.owner hsame
        have hhash : op.argumentsHash = r.argumentsHash := congrArg Identity.argumentsHash hsame
        have htarget : op.targetRef = strip r.listId := by
          simpa [ListOperation.identity, haction] using congrArg Identity.target hsame
        simp only [howner, haction, hhash, htarget, decide_true, Bool.and_self, if_true, replay,
          bind, Except.bind]
        rfl
      · intro hother
        rw [if_neg]
        · exact ⟨_, rfl⟩
        · intro hsame
          simp only [Bool.and_eq_true, decide_eq_true_eq] at hsame
          obtain ⟨⟨⟨howner, haction⟩, htarget⟩, hhash⟩ := hsame
          exact hother (by simp [ListOperation.identity, howner, haction, htarget, hhash])

/-- The record of an operation that took effect with an outcome. -/
def Describes (op : ListOperation) : Outcome → Prop
  | .collection row created _ => op.action = .createCollection ∧
      op.result = .created created row.listId ∧ op.targetRef = row.listId ∧
      op.ownerUserId = row.ownerUserId
  | .items listId items existing _ => op.action = .addItems ∧
      op.result = .added existing (items.map ItemEntry.itemId) listId ∧ op.targetRef = listId
  | .mutation result _ => (∃ m, op.action = .mutation m) ∧ op.result = result

omit [PythonText] in
theorem recorded_of_none {operationId : Str} {same : ListOperation → Bool}
    (hop : db.operations.find? operationId = none) : db.recorded operationId same = .ok none := by
  rw [ListDb.recorded, hop]

omit [PythonText] in
theorem operations_record (h : db.record op = .ok db') :
    db.operations.insert? op = some db'.operations := by
  obtain ⟨operations, hinsert, rfl⟩ := record_eq_ok.1 h
  exact hinsert

omit [PythonText] in
theorem findOrInsert_eq_ok {new row : ListRow} {created : Bool}
    (h : db.findOrInsert new = .ok (row, created, db')) :
    row.ownerUserId = new.ownerUserId ∧ db'.operations = db.operations := by
  unfold ListDb.findOrInsert at h
  split at h
  · next l hnamed =>
    cases h
    have howner := List.find?_some hnamed
    simp only [Bool.and_eq_true, decide_eq_true_eq] at howner
    exact ⟨howner.1, rfl⟩
  · split at h
    · cases h
    · cases h
      exact ⟨rfl, rfl⟩

/-- A call with a new identifier that is carried out leaves its record. -/
theorem run_unrecorded (hop : db.operations.find? c.operationId = none)
    (h : c.run db = .ok (o, db')) :
    ∃ op, op.operationId = c.operationId ∧ op.identity = c.identity ∧ Describes op o ∧
      o.idempotentReplay = false ∧ db.operations.insert? op = some db'.operations := by
  cases c with
  | create freshId r =>
    have hfind : db.operations.find? r.operationId = none := hop
    have hrun : createListWithOperation freshId r db = .ok (o, db') := h
    rw [createListWithOperation, recorded_of_none hfind] at hrun
    simp only [bind_eq_ok] at hrun
    obtain ⟨_, hnone, hrun⟩ := hrun
    cases hnone
    obtain ⟨⟨row, created, inserted⟩, hinserted, hrun⟩ := bind_eq_ok.1 hrun
    obtain ⟨db₁, hrecord, hrun⟩ := bind_eq_ok.1 hrun
    cases hrun
    obtain ⟨howner, hoperations⟩ := findOrInsert_eq_ok hinserted
    refine ⟨_, rfl, ?_, ⟨rfl, rfl, rfl, howner.symm⟩, rfl, hoperations ▸ operations_record hrecord⟩
    simp [ListOperation.identity, TypedCall.identity]
  | add fresh r =>
    have hfind : db.operations.find? r.operationId = none := hop
    have hrun : addListItemsWithOperation fresh r db = .ok (o, db') := h
    rw [addListItemsWithOperation, recorded_of_none hfind] at hrun
    simp only [bind_eq_ok] at hrun
    obtain ⟨_, hnone, hrun⟩ := hrun
    cases hnone
    simp only [bind_eq_ok] at hrun
    obtain ⟨-, -, inserted, hinserted, db₁, hrecord, hrun⟩ := hrun
    cases hrun
    have hadded : ∀ i ∈ r.itemNames.zipIdx.map fun p =>
        r.item fresh (maxPosition (db.itemsOf (strip r.listId)) + 1) p.2 p.1,
        i.listId = strip r.listId := by
      intro i hi
      obtain ⟨p, -, rfl⟩ := List.mem_map.1 hi
      rfl
    obtain ⟨-, hoperations, -⟩ := foldlM_insertItem hadded hinserted
    refine ⟨_, rfl, ?_, ⟨rfl, ?_, rfl⟩, rfl, hoperations ▸ operations_record hrecord⟩
    · simp [ListOperation.identity, TypedCall.identity]
    · simp [List.map_map, Function.comp_def, ListItem.entry]
  | mutate r =>
    have hfind : db.operations.find? r.operationId = none := hop
    have hrun : mutateListWithOperation r db = .ok (o, db') := h
    unfold mutateListWithOperation at hrun
    split at hrun
    · cases hrun
    · next m hmutation =>
      rw [mutateList, recorded_of_none hfind] at hrun
      simp only [bind_eq_ok] at hrun
      obtain ⟨_, hnone, hrun⟩ := hrun
      cases hnone
      dsimp only at hrun
      split at hrun
      · cases hrun
      · simp only [bind_eq_ok] at hrun
        obtain ⟨-, -, -, -, rows, hrows, ⟨mutated, result, changed⟩, happly, db₁, hrecord, hrun⟩ := hrun
        cases hrun
        have hoperations : mutated.operations = db.operations := by
          cases m with
          | updateItem =>
            have hupdate : r.updateItem rows db = .ok (mutated, result, changed) := happly
            unfold MutateRequest.updateItem at hupdate
            split at hupdate
            · simp only [bind_eq_ok] at hupdate
              obtain ⟨-, -, name, -, hupdate⟩ := hupdate
              split at hupdate <;> (cases hupdate; rfl)
            · cases hupdate
          | removeItems =>
            have hremove : r.removeItems rows db = .ok (mutated, result, changed) := happly
            simp only [MutateRequest.removeItems, bind_eq_ok] at hremove
            obtain ⟨-, -, hremove⟩ := hremove
            cases hremove
            rfl
          | clearCollection =>
            cases happly
            rfl
          | deleteCollection =>
            cases happly
            rfl
        have htouched : (if (changed && decide (m ≠ Mutation.deleteCollection)) = true then
            mutated.touchList (strip r.listId) r.timestamp else mutated).operations =
            db.operations := by
          split <;> exact hoperations
        have hinserted := operations_record hrecord
        rw [htouched] at hinserted
        refine ⟨_, ?_, ?_, ⟨⟨m, ?_⟩, ?_⟩, rfl, hinserted⟩
        · rfl
        · simp [ListOperation.identity, TypedCall.identity, hmutation]
        · rfl
        · rfl

end Recorded

section Settled

/-- The outcome of a repetition: the list, the items, the counts and the flags of the first. -/
def Repeats : Outcome → Outcome → Prop
  | .collection row created _, .collection row' created' replay =>
    row'.listId = row.listId ∧ row'.ownerUserId = row.ownerUserId ∧ created' = created ∧
      replay = true
  | .items listId items existing _, .items listId' items' existing' replay =>
    listId' = listId ∧ items'.map ItemEntry.itemId = items.map ItemEntry.itemId ∧
      existing' = existing ∧ replay = true
  | .mutation result _, .mutation result' replay => result' = result ∧ replay = true
  | .collection .., _ | .items .., _ | .mutation .., _ => False

/-- The list or an item that an operation reported is no longer there. -/
def Gone (db : ListDb) : Outcome → Prop
  | .collection row _ _ => db.owned row.ownerUserId row.listId = none
  | .items listId items _ _ => ∃ i ∈ items, db.itemIn listId i.itemId = none
  | .mutation _ _ => False

variable [PythonText] {db db' : ListDb} {c first : TypedCall} {op : ListOperation} {o : Outcome}

/-- How a call answers once `first` has taken effect with its identifier. -/
structure Settled (db : ListDb) (first : TypedCall) (o : Outcome) (c : TypedCall) : Prop where
  unchanged : c.run.commit db = db
  ineffective : ∀ o', c.run.reply db = .ok o' → o'.idempotentReplay = true
  same : c.identity = first.identity →
    (∃ o', c.run.reply db = .ok o' ∧ Repeats o o') ∨
      (c.run.reply db = .error (.valueError "list_operation_replay_target_missing") ∧ Gone db o)
  different : c.identity ≠ first.identity → ∃ e, c.run.reply db = .error e

omit [PythonText] in
/-- The items of a recorded addition are reported, or one of them is gone. -/
theorem replayItems_cases {listId : Str} {ids : List Str} {existing : Nat}
    (hresult : op.result = .added existing ids listId) (target : Str) :
    (∃ rows, replayItems db target op = .ok (rows, existing) ∧ rows.map ItemEntry.itemId = ids) ∨
      (replayItems db target op = .error (.valueError "list_operation_replay_target_missing") ∧
        ∃ id ∈ ids, db.itemIn target id = none) := by
  rw [replayItems, hresult]
  dsimp only
  clear hresult
  induction ids with
  | nil => exact .inl ⟨[], rfl, rfl⟩
  | cons id ids ih =>
    rw [List.mapM_cons]
    cases hitem : db.itemIn target id with
    | none => exact .inr ⟨rfl, id, List.mem_cons_self, hitem⟩
    | some i =>
      have hkey : i.itemId = id := Table.key_of_find? (itemIn_eq_some.1 hitem).1
      rcases ih with ⟨rows, hrows, hids⟩ | ⟨hmissing, id', hid', hgone⟩
      · refine .inl ⟨i.entry :: rows, ?_, ?_⟩
        · obtain ⟨rows', hmap, hpair⟩ := bind_eq_ok.1 hrows
          cases hpair
          rw [hmap]
          rfl
        · rw [List.map_cons, hids, ← hkey]
          rfl
      · refine .inr ⟨?_, id', List.mem_cons_of_mem _ hid', hgone⟩
        rw [bind_eq_error] at hmissing ⊢
        rcases hmissing with hrest | ⟨_, _, hrows⟩
        · exact .inl (bind_eq_error.2 (.inr ⟨_, rfl, bind_eq_error.2 (.inl hrest)⟩))
        · cases hrows

omit [PythonText] in
theorem idempotentReplay_of_replay (h : replay op db = .ok o) : o.idempotentReplay = true := by
  unfold replay at h
  split at h
  · split at h
    · cases h
    · cases h
      rfl
  · obtain ⟨p, -, rfl⟩ := map_eq_ok.1 h
    rfl
  · cases h
    rfl

omit [PythonText] in
theorem replay_cases (hdescribes : Describes op o) :
    (∃ o', replay op db = .ok o' ∧ Repeats o o' ∧ o'.idempotentReplay = true) ∨
      (replay op db = .error (.valueError "list_operation_replay_target_missing") ∧ Gone db o) := by
  cases o with
  | collection row created isReplay =>
    obtain ⟨haction, hresult, htarget, howner⟩ := hdescribes
    rw [replay, haction]
    dsimp only
    cases howned : db.owned op.ownerUserId op.targetRef with
    | none => exact .inr ⟨rfl, by rw [Gone, ← howner, ← htarget, howned]⟩
    | some row' =>
      obtain ⟨hfind, howner'⟩ := owned_eq_some.1 howned
      refine .inl ⟨_, rfl, ⟨?_, howner'.trans howner, ?_, rfl⟩, rfl⟩
      · exact (Table.key_of_find? hfind).trans htarget
      · rw [hresult]
        rfl
  | items listId items existing isReplay =>
    obtain ⟨haction, hresult, htarget⟩ := hdescribes
    rw [replay, haction]
    dsimp only
    rcases @replayItems_cases db op _ _ _ hresult op.targetRef with
      ⟨rows, hrows, hids⟩ | ⟨hmissing, id, hid, hgone⟩
    · rw [hrows]
      exact .inl ⟨_, rfl, ⟨htarget, hids, rfl, rfl⟩, rfl⟩
    · rw [hmissing]
      obtain ⟨i, hi, rfl⟩ := List.mem_map.1 hid
      exact .inr ⟨rfl, i, hi, htarget ▸ hgone⟩
  | mutation result isReplay =>
    obtain ⟨⟨m, haction⟩, hresult⟩ := hdescribes
    rw [replay, haction]
    exact .inl ⟨_, rfl, ⟨hresult, rfl⟩, rfl⟩

/-- A recorded operation settles the calls with its identifier. -/
theorem settled_of_recorded (hop : db.operations.find? c.operationId = some op)
    (hidentity : op.identity = first.identity) (hdescribes : Describes op o) :
    Settled db first o c := by
  obtain ⟨hsame, hother⟩ := run_recorded hop
  by_cases hid : op.identity = c.identity
  · have hrun := hsame hid
    have hreply : c.run.reply db = replay op db := by
      rw [Transaction.reply, hrun]
      cases replay op db <;> rfl
    have hcommit : c.run.commit db = db := by
      rw [Transaction.commit, hrun]
      cases replay op db <;> rfl
    refine ⟨hcommit, fun o' ho' => ?_, fun _ => ?_, fun hne => absurd ?_ hne⟩
    · rw [hreply] at ho'
      rcases @replay_cases db op o hdescribes with ⟨o'', hok, -, hreplay⟩ | ⟨hmissing, -⟩
      · rw [hok] at ho'
        exact Except.ok.inj ho' ▸ hreplay
      · rw [hmissing] at ho'
        cases ho'
    · rw [hreply]
      rcases @replay_cases db op o hdescribes with ⟨o', hok, hrepeats, -⟩ | hmissing
      · exact .inl ⟨o', hok, hrepeats⟩
      · exact .inr hmissing
    · exact hid.symm.trans hidentity
  · obtain ⟨e, herror⟩ := hother hid
    have hreply : c.run.reply db = .error e := by
      rw [Transaction.reply, herror]
      rfl
    refine ⟨Transaction.commit_of_error herror, fun o' ho' => ?_, fun hsame' => ?_,
      fun _ => ⟨e, hreply⟩⟩
    · rw [hreply] at ho'
      cases ho'
    · exact absurd (hidentity.trans hsame'.symm) hid

/-- The records of a call are those before it, with one more where it takes effect. -/
theorem find?_operations_commit {id : Str} (hop : db.operations.find? id = some op) :
    (c.run.commit db).operations.find? id = some op := by
  refine Transaction.commit_of_forall
    (P := fun db' : ListDb => db'.operations.find? id = some op) hop fun o db' h => ?_
  cases hcase : db.operations.find? c.operationId with
  | some other =>
    obtain ⟨hsame, hdifferent⟩ := run_recorded hcase
    by_cases hid : other.identity = c.identity
    · rw [hsame hid] at h
      obtain ⟨o', -, heq⟩ := map_eq_ok.1 h
      cases heq
      exact hop
    · obtain ⟨e, herror⟩ := hdifferent hid
      rw [herror] at h
      cases h
  | none =>
    obtain ⟨new, hid, -, -, -, hinsert⟩ := run_unrecorded hcase h
    rw [Table.find?_insert? hinsert]
    split
    · next heq =>
      rw [← heq, hid, hcase] at hop
      cases hop
    · exact hop

/-- The state of the tables after typed operations. -/
def typedStep (db : ListDb) (c : TypedCall) : ListDb := c.run.commit db

end Settled

end HardyAI.Lists
