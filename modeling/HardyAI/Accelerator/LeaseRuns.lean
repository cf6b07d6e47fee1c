import HardyAI.Accelerator.LeaseCoupling

/-! Every interleaving of the calls of any number of processes. -/

open Foundation Foundation.Json Foundation.Machine Foundation.Trace

namespace HardyAI.Accelerator

section Progress

/-- The tokens of resources only grow, and a waiter that has left the queue stays out of it. -/
structure Advances (db db' : AcceleratorDb) : Prop where
  tokens : ∀ k r, db.resources.find? k = some r →
    ∃ r', db'.resources.find? k = some r' ∧ r.fencingToken ≤ r'.fencingToken
  settled : ∀ k w, db.waiters.find? k = some w →
    ∃ w', db'.waiters.find? k = some w' ∧ (w'.status = .queued → w.status = .queued)

variable {owners : List Str} {now : Instant} {db db' db'' : AcceleratorDb}

theorem Advances.refl (db : AcceleratorDb) : Advances db db :=
  ⟨fun _ r hr => ⟨r, hr, le_rfl⟩, fun _ w hw => ⟨w, hw, id⟩⟩

theorem Advances.trans (h : Advances db db') (h' : Advances db' db'') : Advances db db'' := by
  constructor
  · intro k r hr
    obtain ⟨r', hr', hle⟩ := h.tokens k r hr
    obtain ⟨r'', hr'', hle'⟩ := h'.tokens k r' hr'
    exact ⟨r'', hr'', hle.trans hle'⟩
  · intro k w hw
    obtain ⟨w', hw', hstatus⟩ := h.settled k w hw
    obtain ⟨w'', hw'', hstatus'⟩ := h'.settled k w' hw'
    exact ⟨w'', hw'', hstatus ∘ hstatus'⟩

/-- Rows that are changed in place. -/
theorem advances_of_map {f : Str → Resource → Resource} {g : Str → Waiter → Waiter}
    (hf : ∀ k, db'.resources.find? k = (db.resources.find? k).map (f k))
    (hg : ∀ k, db'.waiters.find? k = (db.waiters.find? k).map (g k))
    (htoken : ∀ k r, db.resources.find? k = some r → r.fencingToken ≤ (f k r).fencingToken)
    (hqueued : ∀ k w, (g k w).status = .queued → w.status = .queued) : Advances db db' :=
  ⟨fun k r hr => ⟨f k r, by rw [hf, hr, Option.map_some], htoken k r hr⟩,
    fun k w hw => ⟨g k w, by rw [hg, hw, Option.map_some], hqueued k w⟩⟩

theorem shaped_of_map (h : Shaped db) {f : Str → Resource → Resource} {g : Str → Waiter → Waiter}
    (hf : ∀ k, db'.resources.find? k = (db.resources.find? k).map (f k))
    (hg : ∀ k, db'.waiters.find? k = (db.waiters.find? k).map (g k))
    (howner : ∀ k r o, db.resources.find? k = some r → (f k r).leaseOwner = some o →
      o ≠ [] ∧ (f k r).leaseExpiresAt.isSome = true) : Shaped db' := by
  constructor
  · intro k w hw
    rw [hg] at hw
    obtain ⟨old, hold, -⟩ := Option.map_eq_some_iff.1 hw
    exact h.named k old hold
  · intro k r o hr ho
    rw [hf] at hr
    obtain ⟨old, hold, rfl⟩ := Option.map_eq_some_iff.1 hr
    exact howner k old o hold ho

theorem advances_expireLocked : Advances db (expireLocked owners now db) := by
  refine advances_of_map (fun _ => resource_expireLocked) (fun _ => waiter_expireLocked) ?_ ?_
  · intro k r _
    by_cases hlapsed : r.lapsed now <;> simp [hlapsed, clearLease]
  · intro k w
    by_cases hout : w.outlived owners now <;> simp [hout, endWaiter]

theorem advances_granted {w : Waiter} {r : Resource} {expiresAt : Instant}
    (hr : db.resources.find? w.resourceId = some r) :
    Advances db (granted w r expiresAt now db) := by
  refine advances_of_map (fun _ => resource_granted) (fun _ => waiter_granted) ?_ ?_
  · intro k r' hr'
    by_cases hk : k = w.resourceId
    · obtain rfl : r = r' := Option.some.inj (hr.symm.trans (hk ▸ hr'))
      simp [hk, grantLease]
    · simp [hk]
  · intro k w'
    by_cases hk : k = w.waiterId ∧ w'.status = .queued <;> simp [hk, acquire]

theorem advances_insert {w : Waiter} {waiters : Table Waiter.waiterId}
    (hinsert : db.waiters.insert? w = some waiters) : Advances db { db with waiters } := by
  refine ⟨fun k r hr => ⟨r, hr, le_rfl⟩, fun k w' hw' => ⟨w', ?_, id⟩⟩
  have hfresh := (Table.insert?_eq_some hinsert).1
  rw [Table.find?_insert? hinsert, if_neg]
  · exact hw'
  · rintro rfl
    simp [hfresh] at hw'

theorem shaped_granted (h : Shaped db) {w : Waiter} {r : Resource} {expiresAt : Instant}
    (hw : db.waiters.find? w.waiterId = some w) : Shaped (granted w r expiresAt now db) := by
  refine shaped_of_map h (fun _ => resource_granted) (fun _ => waiter_granted) ?_
  intro k r' o hr' howner
  by_cases hk : k = w.resourceId
  · simp only [hk, if_true, grantLease, Option.some.injEq] at howner ⊢
    exact ⟨howner ▸ h.named _ w hw, rfl⟩
  · simp only [hk, if_false] at howner ⊢
    exact h.ends k r' o hr' howner

theorem shaped_insert (h : Shaped db) {w : Waiter} {waiters : Table Waiter.waiterId}
    (hinsert : db.waiters.insert? w = some waiters) (hnamed : w.waiterId ≠ []) :
    Shaped { db with waiters } := by
  refine ⟨fun k w' hw' => ?_, h.ends⟩
  have hfind : waiters.find? k = some w' := hw'
  rw [Table.find?_insert? hinsert] at hfind
  split at hfind
  · next hk => exact hk ▸ hnamed
  · exact h.named k w' hfind

variable {α : Type} {s : Store} {fresh : FreshId}

theorem waiter_releaseLease {lease : AcceleratorLease} {k : Str} :
    ((releaseLease lease now).commit db).waiters.find? k = (db.waiters.find? k).map fun w =>
      if (db.resources.updateKey lease.resourceId lease.current (clearLease now)).1 = true ∧
        k = lease.waiterId ∧ w.status = .acquired then (endWaiter .completed now).apply w
      else w := by
  rw [Transaction.commit_of_ok rfl]
  by_cases hreleased :
      (db.resources.updateKey lease.resourceId lease.current (clearLease now)).1 = true
  · simp [hreleased, Table.find?_updateKey]
  · simp [hreleased]

/-- A request moves the ledger on. -/
theorem exec_advances (op : Op) : Advances s.db (exec fresh op s).2.db := by
  cases op with
  | utcNow => exact .refl _
  | expiredOwners now => exact .refl _
  | insertWaiter owners now a =>
    refine Transaction.commit_of_forall (.refl _) fun reply db' h => ?_
    obtain ⟨expiresAt, waiters, hinsert, rfl⟩ := insertWaiter_spec h
    exact advances_expireLocked.trans (advances_insert hinsert)
  | tryAcquire waiterId lease now =>
    refine Transaction.commit_of_forall (.refl _) fun reply db' h => ?_
    obtain ⟨-, rfl⟩ | ⟨w, r, expiresAt, hfound, -, rfl⟩ := tryAcquire_cases h
    · exact advances_expireLocked
    · exact advances_expireLocked.trans (advances_granted (grantable_eq_ok.1 hfound).2.1)
  | renew lease expiresAt now =>
    refine advances_of_map (fun k => Table.find?_updateKey s.db.resources _ k)
      (fun k => Option.map_id'.symm) ?_ fun _ _ h => h
    intro k r _
    by_cases hk : k = lease.resourceId ∧ lease.current r = true <;> simp [hk, extendLease]
  | releaseLease lease now =>
    refine advances_of_map (fun k => Table.find?_updateKey s.db.resources _ k)
      (fun _ => waiter_releaseLease) ?_ ?_
    · intro k r _
      by_cases hk : k = lease.resourceId ∧ lease.current r = true <;> simp [hk, clearLease]
    · intro k w h
      split at h
      · simp [endWaiter] at h
      · exact h
  | withdraw waiterId now =>
    refine advances_of_map (fun k => Option.map_id'.symm)
      (fun k => Table.find?_updateKey s.db.waiters _ k) (fun _ _ _ => le_rfl) ?_
    intro k w h
    split at h
    · simp [endWaiter] at h
    · exact h
  | sweepAndCount owners now => exact advances_expireLocked

theorem exec_shaped (h : Shaped s.db) (op : Op) : Shaped (exec fresh op s).2.db := by
  cases op with
  | utcNow => exact h
  | expiredOwners now => exact h
  | insertWaiter owners now a =>
    refine Transaction.commit_of_forall h fun reply db' hcommit => ?_
    obtain ⟨expiresAt, waiters, hinsert, rfl⟩ := insertWaiter_spec hcommit
    exact shaped_insert h.expireLocked hinsert fresh.property
  | tryAcquire waiterId lease now =>
    refine Transaction.commit_of_forall h fun reply db' hcommit => ?_
    obtain ⟨-, rfl⟩ | ⟨w, r, expiresAt, hfound, -, rfl⟩ := tryAcquire_cases hcommit
    · exact h.expireLocked
    · have hw := (grantable_eq_ok.1 hfound).1.1
      exact shaped_granted h.expireLocked (Table.key_of_find? hw ▸ hw)
  | renew lease expiresAt now =>
    refine shaped_of_map h (fun k => Table.find?_updateKey s.db.resources _ k)
      (fun k => Option.map_id'.symm) fun k r o hr howner => ?_
    by_cases hk : k = lease.resourceId ∧ lease.current r = true
    · simp only [hk, and_self, if_true] at howner ⊢
      exact ⟨(h.ends k r o hr howner).1, rfl⟩
    · simp only [hk, if_false] at howner ⊢
      exact h.ends k r o hr howner
  | releaseLease lease now =>
    refine shaped_of_map h (fun k => Table.find?_updateKey s.db.resources _ k)
      (fun _ => waiter_releaseLease) fun k r o hr howner => ?_
    by_cases hk : k = lease.resourceId ∧ lease.current r = true
    · simp [hk, clearLease] at howner
    · simp only [hk, if_false] at howner ⊢
      exact h.ends k r o hr howner
  | withdraw waiterId now =>
    exact shaped_of_map h (fun k => Option.map_id'.symm)
      (fun k => Table.find?_updateKey s.db.waiters _ k) h.ends
  | sweepAndCount owners now => exact h.expireLocked

end Progress

section Order

theorem claimOrder_trans {a b c : Waiter} (hab : claimOrder a b) (hbc : claimOrder b c) :
    claimOrder a c := by
  rcases hab with hab | ⟨hab, hab'⟩ <;> rcases hbc with hbc | ⟨hbc, hbc'⟩
  · exact .inl (hbc.trans hab)
  · exact .inl (hbc ▸ hab)
  · exact .inl (hab ▸ hbc)
  · refine .inr ⟨hab.trans hbc, ?_⟩
    rcases hab' with hab' | ⟨hab', hid⟩ <;> rcases hbc' with hbc' | ⟨hbc', hid'⟩
    · exact .inl (hab'.trans hbc')
    · exact .inl (hbc' ▸ hab')
    · exact .inl (hab' ▸ hbc')
    · exact .inr ⟨hab'.trans hbc', hid.trans hid'⟩

theorem claimOrder_total (a b : Waiter) : claimOrder a b ∨ claimOrder b a := by
  rcases lt_trichotomy a.priority b.priority with hlt | heq | hlt
  · exact .inr (.inl hlt)
  · rcases lt_trichotomy a.createdAt b.createdAt with hcreated | hcreated | hcreated
    · exact .inl (.inr ⟨heq, .inl hcreated⟩)
    · rcases le_total a.waiterId b.waiterId with hid | hid
      · exact .inl (.inr ⟨heq, .inr ⟨hcreated, hid⟩⟩)
      · exact .inr (.inr ⟨heq.symm, .inr ⟨hcreated.symm, hid⟩⟩)
    · exact .inr (.inr ⟨heq.symm, .inl hcreated⟩)
  · exact .inl (.inl hlt)

instance : IsTrans Waiter claimOrder := ⟨fun _ _ _ => claimOrder_trans⟩

instance : Std.Total claimOrder := ⟨claimOrder_total⟩

/-- The first of the queue comes before every other waiter of the resource. -/
theorem first?_spec {db : AcceleratorDb} {resourceId : Str} {now : Instant} {w : Waiter}
    (h : first? db resourceId now = some w) :
    w ∈ db.waiters.rows ∧ ∀ w' ∈ db.waiters.rows, w'.resourceId = resourceId →
      w'.waiting now = true → claimOrder w w' := by
  obtain ⟨tail, htail⟩ := List.head?_eq_some_iff.1 h
  have hsorted := List.pairwise_insertionSort claimOrder
    (db.waiters.rows.filter fun w => w.resourceId = resourceId && w.waiting now)
  have hmem : ∀ w', w' ∈ w :: tail ↔ w' ∈ db.waiters.rows ∧ w'.resourceId = resourceId ∧
      w'.waiting now = true := by
    intro w'
    rw [← htail, List.mem_insertionSort]
    simp
  rw [htail, List.pairwise_cons] at hsorted
  refine ⟨((hmem w).1 List.mem_cons_self).1, fun w' hw' hresource hwaiting => ?_⟩
  rcases List.mem_cons.1 ((hmem w').2 ⟨hw', hresource, hwaiting⟩) with rfl | htail'
  · exact (claimOrder_total w' w').elim id id
  · exact hsorted.1 w' htail'

end Order

section System

variable [PythonText]

/-- Calls of any processes over one ledger, while time passes. -/
def ledgerMachine : Machine Store Op FreshId Instant Unit Call Empty Op.Reply where
  exec := exec
  outside := tick
  program := Call.program
  spawns _ := none
  child := nofun

abbrev Event := Machine.Event FreshId Instant Call
abbrev Entry := Machine.Entry Instant Unit Op.Reply
abbrev System := Machine.System Store Instant Unit Op.Reply

/-- The ledger as `_ensure_schema` makes it. -/
def Store.initial : Store where
  db := ⟨⟨[⟨gpu, 0, none, none, none, none, ⟨0, zero_lt_maxMicros⟩⟩], List.nodup_singleton _⟩, ∅⟩
  clock := ⟨0, zero_lt_maxMicros⟩

def systemAfter (es : List Event) : System := run ledgerMachine.step (Machine.start .initial) es

/-- The owners and the time of a sweep whose select stands outside its transaction. -/
def Op.sweep : Op → Option (List Str × Instant)
  | .insertWaiter owners now _ => some (owners, now)
  | .sweepAndCount owners now => some (owners, now)
  | _ => none

def Op.commits : (op : Op) → op.Reply → Bool
  | .insertWaiter _ _ _, reply => reply.isOk
  | .sweepAndCount _ _, reply => reply.isOk
  | _, _ => true

/-- A committing sweep is given the owners whose leases have run out in the state it changes. -/
def SweepsExactly (fresh : FreshId) (op : Op) (s : Store) : Prop :=
  ∀ owners now, op.sweep = some (owners, now) → op.commits (exec fresh op s).1 = true →
    ExactOwners owners now s.db

variable {s : Store} {fresh : FreshId} {op : Op}

omit [PythonText] in
theorem sweepsExactly_of_none (h : op.sweep = none) : SweepsExactly fresh op s := by
  intro owners now hsweep
  simp [h] at hsweep

omit [PythonText] in
/-- A request keeps the coupling if and only if it does not sweep with outdated owners. -/
theorem exec_coupled_iff (h : Coupled s.db) (hshaped : Shaped s.db) :
    Coupled (exec fresh op s).2.db ↔ SweepsExactly fresh op s := by
  cases op with
  | utcNow => exact iff_of_true h (sweepsExactly_of_none rfl)
  | expiredOwners now => exact iff_of_true h (sweepsExactly_of_none rfl)
  | insertWaiter owners now a =>
    cases hcommit : insertWaiter owners now a fresh.val s.db with
    | error e =>
      have hsame : (exec fresh (.insertWaiter owners now a) s).2.db = s.db :=
        Transaction.commit_of_error hcommit
      refine iff_of_true (hsame ▸ h) fun owners' now' _ hok => ?_
      simp [Op.commits, exec, onDb, Transaction.reply, hcommit, Except.map, Except.isOk,
        Except.toBool] at hok
    | ok p =>
      obtain ⟨reply, db'⟩ := p
      have hdb : (exec fresh (.insertWaiter owners now a) s).2.db = db' :=
        Transaction.commit_of_ok hcommit
      rw [hdb, coupled_insertWaiter_iff h hcommit]
      constructor
      · intro hexact owners' now' hsweep _
        obtain ⟨rfl, rfl⟩ : owners = owners' ∧ now = now' := by simpa [Op.sweep] using hsweep
        exact hexact
      · intro hexact
        refine hexact owners now rfl ?_
        simp [Op.commits, exec, onDb, Transaction.reply, hcommit, Except.map, Except.isOk,
          Except.toBool]
  | tryAcquire waiterId lease now =>
    exact iff_of_true (Transaction.commit_of_forall h fun _ _ => coupled_tryAcquire h hshaped)
      (sweepsExactly_of_none rfl)
  | renew lease expiresAt now =>
    exact iff_of_true (Transaction.commit_of_forall h fun _ _ => coupled_renew h)
      (sweepsExactly_of_none rfl)
  | releaseLease lease now =>
    exact iff_of_true (Transaction.commit_of_forall h fun _ _ => coupled_releaseLease h)
      (sweepsExactly_of_none rfl)
  | withdraw waiterId now =>
    exact iff_of_true (Transaction.commit_of_forall h fun _ _ => coupled_withdraw h)
      (sweepsExactly_of_none rfl)
  | sweepAndCount owners now =>
    have hdb : (exec fresh (.sweepAndCount owners now) s).2.db = expireLocked owners now s.db :=
      Transaction.commit_of_ok (t := sweepAndCount owners now) rfl
    rw [hdb, coupled_expireLocked_iff h]
    constructor
    · intro hexact owners' now' hsweep _
      obtain ⟨rfl, rfl⟩ : owners = owners' ∧ now = now' := by simpa [Op.sweep] using hsweep
      exact hexact
    · exact fun hexact => hexact owners now rfl rfl

/-- The step is no sweep with owners that were selected too early. -/
def TimelySweep (s : System) : Event → Prop
  | .step i fresh => ∀ worker history op, pending? s i = some (worker, history, op) →
      SweepsExactly fresh op s.state
  | .start _ | .outside _ => True

/-- The ledger after a step is that of a request, or the one before. -/
theorem step_db (s : System) (e : Event) :
    (∃ i fresh worker history op, e = .step i fresh ∧
      pending? s i = some (worker, history, op) ∧
      (ledgerMachine.step s e).state.db = (exec fresh op s.state).2.db ∧
      (ledgerMachine.step s e).log = s.log ++ [.ran worker op (exec fresh op s.state).1]) ∨
    (ledgerMachine.step s e).state.db = s.state.db ∧ TimelySweep s e ∧
      ((ledgerMachine.step s e).log = s.log ∨
        ∃ t, (ledgerMachine.step s e).log = s.log ++ [.outside t ()]) := by
  rcases step_cases (M := ledgerMachine) s e with
    ⟨i, fresh, worker, history, op, rfl, hpending, hstate, hlog⟩ | ⟨t, rfl, -, hlog⟩ |
      ⟨hidle, hstate, hlog⟩
  · exact .inl ⟨i, fresh, worker, history, op, rfl, hpending, congrArg Store.db hstate, hlog⟩
  · exact .inr ⟨rfl, trivial, .inr ⟨t, hlog⟩⟩
  · refine .inr ⟨congrArg Store.db hstate, ?_, .inl hlog⟩
    cases e with
    | start c => trivial
    | outside t => trivial
    | step i fresh =>
      intro worker history op hpending
      simp [hidle i fresh rfl] at hpending

theorem step_shaped (s : System) (e : Event) (h : Shaped s.state.db) :
    Shaped (ledgerMachine.step s e).state.db := by
  rcases step_db s e with ⟨i, fresh, worker, history, op, -, -, hdb, -⟩ | ⟨hdb, -⟩
  · rw [hdb]
    exact exec_shaped h op
  · rw [hdb]
    exact h

theorem reachable_shaped (es : List Event) : Shaped (systemAfter es).state.db := by
  have hstep : ∀ (s : System) (e : Event), Shaped s.state.db →
      Shaped (ledgerMachine.step s e).state.db := step_shaped
  refine run_invariant hstep ?_ es
  constructor
  · intro k w hw
    simp [Machine.start, Store.initial] at hw
  · intro k r o hr howner
    obtain rfl := List.mem_singleton.1 (Table.mem_of_find? hr)
    simp at howner

theorem step_coupled_iff {s : System} {e : Event} (h : Coupled s.state.db)
    (hshaped : Shaped s.state.db) :
    Coupled (ledgerMachine.step s e).state.db ↔ TimelySweep s e := by
  rcases step_db s e with ⟨i, fresh, worker, history, op, rfl, hpending, hdb, -⟩ | ⟨hdb, htimely, -⟩
  · rw [hdb, exec_coupled_iff h hshaped]
    constructor
    · intro hexact worker' history' op' hpending'
      obtain ⟨-, hrest⟩ := Prod.mk.inj (Option.some.inj (hpending.symm.trans hpending'))
      obtain rfl := (Prod.mk.inj hrest).2
      exact hexact
    · exact fun htimely => htimely worker history op hpending
  · rw [hdb]
    exact iff_of_true h htimely

omit [PythonText] in
theorem initial_coupled : Coupled Store.initial.db := by
  constructor
  · intro k w hw
    simp [Store.initial] at hw
  · intro k r o hr howner
    obtain rfl := List.mem_singleton.1 (Table.mem_of_find? hr)
    simp at howner

end System

section Log

variable [PythonText]

/-- A call of `try_acquire` that returned the lease. -/
def Grants (lease : AcceleratorLease) : Entry → Prop
  | .ran _ (.tryAcquire _ _ _) reply => reply = .ok (some lease)
  | _ => False

variable {s : Store} {fresh : FreshId}

omit [PythonText] in
/-- A grant goes to the first of the queue and takes the next token of the resource. -/
theorem grant_spec {waiterId : Str} {leaseSeconds : Seconds} {now : Instant}
    {lease : AcceleratorLease}
    (h : (exec fresh (.tryAcquire waiterId leaseSeconds now) s).1 = .ok (some lease)) :
    ∃ w r expiresAt, s.db.waiters.find? waiterId = some w ∧ w.waiting now = true ∧
      s.db.resources.find? w.resourceId = some r ∧
      lease = ⟨waiterId, w.resourceId, w.lane, w.priority, r.fencingToken + 1, expiresAt⟩ ∧
      (∀ k w', s.db.waiters.find? k = some w' → w'.resourceId = w.resourceId →
        w'.waiting now = true → claimOrder w w') ∧
      (∃ r', (exec fresh (.tryAcquire waiterId leaseSeconds now) s).2.db.resources.find?
        w.resourceId = some r' ∧ r'.fencingToken = r.fencingToken + 1) ∧
      ∃ w', (exec fresh (.tryAcquire waiterId leaseSeconds now) s).2.db.waiters.find?
        waiterId = some w' ∧ w'.status = .acquired := by
  have hrun := Transaction.reply_eq_ok.1 h
  obtain ⟨hnone, -⟩ | ⟨w, r', expiresAt, hfound, hlease, hdb⟩ := tryAcquire_cases hrun
  · simp at hnone
  · obtain ⟨hw, hr', -, hfirst⟩ := grantable_eq_ok.1 hfound
    obtain ⟨hfind, hwaiting⟩ := find?_expireLocked_waiting.1 hw
    have hkey : w.waiterId = waiterId := Table.key_of_find? hw.1
    obtain ⟨w₁, hw₁, hid⟩ := Option.map_eq_some_iff.1 hfirst
    obtain ⟨hmem, hbefore⟩ := first?_spec hw₁
    obtain rfl : w = w₁ :=
      Table.key_injective _ (Table.mem_of_find? hw.1) hmem (hkey.trans hid.symm)
    have hafter : (exec fresh (.tryAcquire waiterId leaseSeconds now) s).2.db = granted w r'
        expiresAt now (expireLocked (expiredOwners s.db now) now s.db) := hdb
    have hswept := hr'
    rw [resource_expireLocked] at hswept
    obtain ⟨r, hr, hsame⟩ := Option.map_eq_some_iff.1 hswept
    have htoken : r'.fencingToken = r.fencingToken := by
      rw [← hsame]
      by_cases hlapsed : r.lapsed now <;> simp [hlapsed, clearLease]
    refine ⟨w, r, expiresAt, hfind, hwaiting, hr, ?_, ?_, ?_, ?_⟩
    · rw [← htoken]
      exact Option.some.inj hlease
    · intro k w' hw' hresource hwaiting'
      have hleft : (expireLocked (expiredOwners s.db now) now s.db).waiters.find? k = some w' ∧
          w'.waiting now = true := find?_expireLocked_waiting.2 ⟨hw', hwaiting'⟩
      exact hbefore w' (Table.mem_of_find? hleft.1) hresource hwaiting'
    · rw [hafter, resource_granted, hr']
      exact ⟨_, rfl, by simp [grantLease, htoken]⟩
    · rw [hafter, waiter_granted, hw.1]
      exact ⟨_, rfl, by simp [hkey, (waiting_iff.1 hwaiting).1, acquire]⟩

/-- What the ledger remembers of a lease it has granted. -/
def Remembers (db : AcceleratorDb) (lease : AcceleratorLease) : Prop :=
  (∃ r, db.resources.find? lease.resourceId = some r ∧ lease.fencingToken ≤ r.fencingToken) ∧
    ∃ w, db.waiters.find? lease.waiterId = some w ∧ w.status ≠ .queued

omit [PythonText] in
theorem Remembers.advances {db db' : AcceleratorDb} {lease : AcceleratorLease}
    (h : Remembers db lease) (hdb : Advances db db') : Remembers db' lease := by
  obtain ⟨⟨r, hr, hle⟩, w, hw, hstatus⟩ := h
  obtain ⟨r', hr', hle'⟩ := hdb.tokens _ r hr
  obtain ⟨w', hw', hqueued⟩ := hdb.settled _ w hw
  exact ⟨⟨r', hr', hle.trans hle'⟩, w', hw', fun h => hstatus (hqueued h)⟩

/-- The later grant is another waiter's, with a larger token of the same resource. -/
def Succeeds (e f : Entry) : Prop :=
  ∀ lease lease', Grants lease e → Grants lease' f → lease.waiterId ≠ lease'.waiterId ∧
    (lease.resourceId = lease'.resourceId → lease.fencingToken < lease'.fencingToken)

structure Recorded (db : AcceleratorDb) (log : List Entry) : Prop where
  remembered : ∀ e ∈ log, ∀ lease, Grants lease e → Remembers db lease
  succession : log.Pairwise Succeeds

omit [PythonText] in
theorem Recorded.append {db db' : AcceleratorDb} {log : List Entry} (h : Recorded db log)
    {x : Entry} (hdb : Advances db db') (hnew : ∀ lease, Grants lease x → Remembers db' lease)
    (hlater : ∀ lease lease', Remembers db lease → Grants lease' x →
      lease.waiterId ≠ lease'.waiterId ∧
        (lease.resourceId = lease'.resourceId → lease.fencingToken < lease'.fencingToken)) :
    Recorded db' (log ++ [x]) := by
  constructor
  · intro e he lease hgrants
    rcases List.mem_append.1 he with he | he
    · exact (h.remembered e he lease hgrants).advances hdb
    · exact hnew lease (List.mem_singleton.1 he ▸ hgrants)
  · refine List.pairwise_append.2 ⟨h.succession, List.pairwise_singleton _ _, ?_⟩
    intro e he f hf lease lease' hgrants hgrants'
    obtain rfl := List.mem_singleton.1 hf
    exact hlater lease lease' (h.remembered e he lease hgrants) hgrants'

omit [PythonText] in
theorem recorded_exec {log : List Entry} (h : Recorded s.db log) (worker : Nat) (op : Op) :
    Recorded (exec fresh op s).2.db (log ++ [.ran worker op (exec fresh op s).1]) := by
  refine h.append (exec_advances op) ?_ ?_
  · intro lease hgrants
    cases op with
    | tryAcquire waiterId leaseSeconds now =>
      obtain ⟨w, r, expiresAt, -, -, -, rfl, -, ⟨r', hr', htoken⟩, w', hw', hstatus⟩ :=
        grant_spec hgrants
      exact ⟨⟨r', hr', htoken.ge⟩, w', hw', by simp [hstatus]⟩
    | _ => exact False.elim hgrants
  · intro lease lease' hremembers hgrants
    cases op with
    | tryAcquire waiterId leaseSeconds now =>
      obtain ⟨w, r, expiresAt, hw, hwaiting, hr, rfl, -⟩ := grant_spec hgrants
      obtain ⟨⟨r', hr', hle⟩, w', hw', hstatus⟩ := hremembers
      constructor
      · intro (hsame : lease.waiterId = waiterId)
        have hfind : s.db.waiters.find? waiterId = some w' := hsame ▸ hw'
        obtain rfl : w = w' := Option.some.inj (hw.symm.trans hfind)
        exact hstatus (waiting_iff.1 hwaiting).1
      · intro (hsame : lease.resourceId = w.resourceId)
        have hfind : s.db.resources.find? w.resourceId = some r' := hsame ▸ hr'
        obtain rfl : r = r' := Option.some.inj (hr.symm.trans hfind)
        exact Int.lt_add_one_of_le hle
    | _ => exact False.elim hgrants

theorem step_recorded (s : System) (e : Event) (h : Recorded s.state.db s.log) :
    Recorded (ledgerMachine.step s e).state.db (ledgerMachine.step s e).log := by
  rcases step_db s e with
    ⟨i, fresh, worker, history, op, -, -, hdb, hlog⟩ | ⟨hdb, -, hlog | ⟨t, hlog⟩⟩
  · rw [hdb, hlog]
    exact recorded_exec h worker op
  · rw [hdb, hlog]
    exact h
  · rw [hdb, hlog]
    exact h.append (.refl _) (fun lease hgrants => False.elim hgrants)
      fun lease lease' _ hgrants => False.elim hgrants

theorem reachable_recorded (es : List Event) :
    Recorded (systemAfter es).state.db (systemAfter es).log := by
  have hstep : ∀ (s : System) (e : Event), Recorded s.state.db s.log →
      Recorded (ledgerMachine.step s e).state.db (ledgerMachine.step s e).log := step_recorded
  refine run_invariant hstep ?_ es
  exact ⟨fun e he => absurd he (by simp [Machine.start]), List.Pairwise.nil⟩

section Stale

variable {lease : AcceleratorLease} {now expiresAt : Instant}

/-- A lease whose token is not the resource's. -/
def Stale (lease : AcceleratorLease) (db : AcceleratorDb) : Prop :=
  ∀ r, db.resources.find? lease.resourceId = some r → r.fencingToken ≠ lease.fencingToken

omit [PythonText] in
theorem Stale.updateKey_fst (h : Stale lease s.db) {f : Table.Assignment Resource.resourceId} :
    (s.db.resources.updateKey lease.resourceId lease.current f).1 = false := by
  rw [← Bool.not_eq_true, Table.updateKey_fst]
  rintro ⟨r, hr, hcurrent⟩
  simp only [AcceleratorLease.current, Bool.and_eq_true, decide_eq_true_eq] at hcurrent
  exact h r hr hcurrent.2

omit [PythonText] in
theorem renew_stale (h : Stale lease s.db) :
    exec fresh (.renew lease expiresAt now) s = (.ok false, s) := by
  have hrun : renew lease expiresAt now s.db = .ok (false, s.db) := by
    simp [renew, h.updateKey_fst, Table.updateKey_snd_of_false h.updateKey_fst]
  simp [exec, onDb, Transaction.reply, Transaction.commit, hrun, Except.map]

omit [PythonText] in
theorem releaseLease_stale (h : Stale lease s.db) :
    exec fresh (.releaseLease lease now) s = (.ok false, s) := by
  have hrun : releaseLease lease now s.db = .ok (false, s.db) := by
    simp [releaseLease, h.updateKey_fst, Table.updateKey_snd_of_false h.updateKey_fst]
  simp [exec, onDb, Transaction.reply, Transaction.commit, hrun, Except.map]

end Stale

/-- While every sweep of a run is exact, leases and waiters agree in every state reached, and the
first inexact one breaks the agreement. In every run, tokens of successive leases grow, a waiter
acquires once, a lease goes to the first waiting one of the queue, and a stale lease does
nothing. -/
theorem lease_coupling (es : List Event) :
    ((∀ pre e post, es = pre ++ e :: post → TimelySweep (systemAfter pre) e) →
      Coupled (systemAfter es).state.db ∧
      ∀ w ∈ (systemAfter es).state.db.waiters.rows, ∀ w' ∈ (systemAfter es).state.db.waiters.rows,
        w.status = .acquired → w'.status = .acquired → w.resourceId = w'.resourceId → w = w') ∧
    (∀ e, Coupled (systemAfter es).state.db →
      (Coupled (systemAfter (es ++ [e])).state.db ↔ TimelySweep (systemAfter es) e)) ∧
    (systemAfter es).log.Pairwise Succeeds ∧
    (∀ fresh waiterId leaseSeconds now lease,
      (exec fresh (.tryAcquire waiterId leaseSeconds now) (systemAfter es).state).1 =
        .ok (some lease) →
      ∃ w, (systemAfter es).state.db.waiters.find? waiterId = some w ∧ w.status = .queued ∧
        now < w.expiresAt ∧ lease.waiterId = waiterId ∧ lease.resourceId = w.resourceId ∧
        ∀ k w', (systemAfter es).state.db.waiters.find? k = some w' →
          w'.resourceId = w.resourceId → w'.status = .queued → now < w'.expiresAt →
          w'.priority < w.priority ∨ w.priority = w'.priority ∧ w.createdAt ≤ w'.createdAt) ∧
    ∀ fresh lease expiresAt now, Stale lease (systemAfter es).state.db →
      exec fresh (.renew lease expiresAt now) (systemAfter es).state =
        (.ok false, (systemAfter es).state) ∧
      exec fresh (.releaseLease lease now) (systemAfter es).state =
        (.ok false, (systemAfter es).state) := by
  refine ⟨fun htimely => ?_, fun e h => ?_, (reachable_recorded es).succession, ?_, ?_⟩
  · have hcoupled : Coupled (systemAfter es).state.db ∧ Shaped (systemAfter es).state.db := by
      have hstep : ∀ (s : System) (e : Event), TimelySweep s e →
          Coupled s.state.db ∧ Shaped s.state.db →
          Coupled (ledgerMachine.step s e).state.db ∧ Shaped (ledgerMachine.step s e).state.db := by
        rintro s e hok ⟨h, hshaped⟩
        exact ⟨(step_coupled_iff h hshaped).2 hok, step_shaped s e hshaped⟩
      exact run_invariant_of_forall hstep ⟨initial_coupled, reachable_shaped []⟩ es htimely
    exact ⟨hcoupled.1, fun w hw w' hw' hstatus hstatus' hsame =>
      hcoupled.1.at_most_one hw hw' hstatus hstatus' hsame⟩
  · have hlast : systemAfter (es ++ [e]) = ledgerMachine.step (systemAfter es) e :=
      run_concat (Machine.start Store.initial) es e
    rw [hlast]
    exact step_coupled_iff h (reachable_shaped es)
  · intro fresh waiterId leaseSeconds now lease hgrant
    obtain ⟨w, r, expiresAt, hw, hwaiting, -, rfl, hfirst, -⟩ := grant_spec hgrant
    obtain ⟨hstatus, hlt⟩ := waiting_iff.1 hwaiting
    refine ⟨w, hw, hstatus, hlt, rfl, rfl, fun k w' hw' hresource hstatus' hlt' => ?_⟩
    rcases hfirst k w' hw' hresource (waiting_iff.2 ⟨hstatus', hlt'⟩) with
      hpriority | ⟨heq, hcreated | ⟨hcreated, -⟩⟩
    · exact .inl hpriority
    · exact .inr ⟨heq, hcreated.le⟩
    · exact .inr ⟨heq, hcreated.le⟩
  · exact fun fresh lease expiresAt now hstale => ⟨renew_stale hstale, releaseLease_stale hstale⟩

end Log

section Sample

theorem minute_lt (n : Fin 60) : n.val * 60000000 < maxMicros := by
  have hbound := n.isLt
  simp only [maxMicros]
  omega

def minute (n : Fin 60) : Instant := ⟨n.val * 60000000, minute_lt n⟩

def freshId (name : String) (h : text name ≠ []) : FreshId := ⟨text name, h⟩

/-- Two waiters of which the first acquires, with the clock at its first reading. -/
def orderlyRun : List Event :=
  [.start (.enqueue "document_vlm" 10 (.micros 900000000) gpu),
    .step 0 (freshId "a" (by decide)), .step 0 (freshId "a" (by decide)),
    .step 0 (freshId "a" (by decide)),
    .start (.enqueue "email_summary" 40 (.micros 900000000) gpu),
    .step 1 (freshId "b" (by decide)), .step 1 (freshId "b" (by decide)),
    .step 1 (freshId "b" (by decide)),
    .start (.tryAcquire "b" (.micros 5000000)), .step 2 (freshId "b" (by decide))]

theorem lease_coupling_orderlyRun :
    ∃ w, (@systemAfter asciiText orderlyRun).state.db.waiters.find? "b" = some w ∧
      w.status = .queued ∧ ∀ k w', (@systemAfter asciiText orderlyRun).state.db.waiters.find? k =
        some w' → w'.resourceId = w.resourceId → w'.status = .queued → minute 0 < w'.expiresAt →
        w'.priority < w.priority ∨ w.priority = w'.priority ∧ w.createdAt ≤ w'.createdAt := by
  have hgrant : (exec (freshId "b" (by decide)) (.tryAcquire "b" (.micros 5000000) (minute 0))
      (@systemAfter asciiText orderlyRun).state).1 =
      .ok (some ⟨"b", gpu, "email_summary", 40, 1, ⟨5000000, by decide⟩⟩) := by decide +kernel
  obtain ⟨-, -, -, hgrants, -⟩ := @lease_coupling asciiText orderlyRun
  obtain ⟨w, hw, hstatus, -, -, -, hfirst⟩ := hgrants _ _ _ _ _ hgrant
  exact ⟨w, hw, hstatus, hfirst⟩

/-- The process that acquires stands still between its clock and its transaction, which
then falls between the select and the updates of a snapshot. -/
def overtakenRun : List Event :=
  orderlyRun ++
    [.outside (minute 2), .start .snapshot, .step 3 (freshId "x" (by decide)),
      .step 3 (freshId "x" (by decide)), .step 2 (freshId "b" (by decide)),
      .step 3 (freshId "x" (by decide)), .start (.tryAcquire "a" (.micros 5000000)),
      .step 4 (freshId "a" (by decide)), .step 4 (freshId "a" (by decide))]

/-- Two waiters of one accelerator have acquired it at the same time. -/
theorem two_acquired_overtakenRun :
    ∃ w ∈ (@systemAfter asciiText overtakenRun).state.db.waiters.rows,
      ∃ w' ∈ (@systemAfter asciiText overtakenRun).state.db.waiters.rows,
        w.status = .acquired ∧ w'.status = .acquired ∧ w.resourceId = w'.resourceId ∧ w ≠ w' := by
  decide +kernel

end Sample

end HardyAI.Accelerator
