import HardyAI.Accelerator.Repository

/-! The coupling of leases and waiters, and which transactions keep it. -/

open Foundation

namespace HardyAI.Accelerator

section Sweep

variable {owners : List Str} {now : Instant} {db : AcceleratorDb}

/-- The waiters that a sweep ends. -/
def Waiter.outlived (owners : List Str) (now : Instant) (w : Waiter) : Bool :=
  w.status = .acquired && owners.contains w.waiterId || w.status = .queued && w.expiresAt ≤ now

theorem foldl_expireAcquired (waiters : Table Waiter.waiterId) :
    owners.foldl (expireAcquired now) waiters =
      waiters.update (fun w => w.status = .acquired && owners.contains w.waiterId)
        (endWaiter .expired now) := by
  induction owners generalizing waiters with
  | nil => exact (Table.update_eq_self (by simp)).symm
  | cons owner owners ih =>
    rw [List.foldl_cons, ih, expireAcquired, Table.updateKey, Table.update_update]
    · congr 1
      funext w
      by_cases hw : w.waiterId = owner <;> simp +contextual [hw]
    · intro w _
      simp [endWaiter]

theorem waiters_expireLocked :
    (expireLocked owners now db).waiters =
      db.waiters.update (Waiter.outlived owners now) (endWaiter .expired now) := by
  rw [expireLocked, foldl_expireAcquired, Table.update_update]
  · rfl
  · intro w _
    simp [endWaiter]

theorem waiter_expireLocked {k : Str} :
    (expireLocked owners now db).waiters.find? k = (db.waiters.find? k).map fun w =>
      if w.outlived owners now then (endWaiter .expired now).apply w else w := by
  rw [waiters_expireLocked, Table.find?_update]

theorem resource_expireLocked {k : Str} :
    (expireLocked owners now db).resources.find? k = (db.resources.find? k).map fun r =>
      if r.lapsed now then (clearLease now).apply r else r :=
  Table.find?_update db.resources k

theorem waiting_iff {w : Waiter} {now : Instant} :
    w.waiting now = true ↔ w.status = .queued ∧ now < w.expiresAt := by
  simp [Waiter.waiting]

/-- A sweep leaves the waiters alone that still wait. -/
theorem find?_expireLocked_waiting {k : Str} {w : Waiter} :
    (expireLocked owners now db).waiters.find? k = some w ∧ w.waiting now = true ↔
      db.waiters.find? k = some w ∧ w.waiting now = true := by
  rw [waiter_expireLocked]
  constructor
  · rintro ⟨hfind, hwaiting⟩
    obtain ⟨old, hold, rfl⟩ := Option.map_eq_some_iff.1 hfind
    by_cases hout : old.outlived owners now
    · simp [hout, endWaiter, Waiter.waiting] at hwaiting
    · simpa [hout, hold] using hwaiting
  · rintro ⟨hfind, hwaiting⟩
    obtain ⟨hstatus, hlt⟩ := waiting_iff.1 hwaiting
    have hout : w.outlived owners now = false := by simp [Waiter.outlived, hstatus, hlt]
    simp [hfind, hout, hwaiting]

end Sweep

section Coupling

/-- An acquired waiter owns the lease of its resource, and the owner of a lease is an acquired
waiter of the resource. -/
structure Coupled (db : AcceleratorDb) : Prop where
  owns : ∀ k w, db.waiters.find? k = some w → w.status = .acquired →
    ∃ r, db.resources.find? w.resourceId = some r ∧ r.leaseOwner = some k
  acquired : ∀ k r o, db.resources.find? k = some r → r.leaseOwner = some o →
    ∃ w, db.waiters.find? o = some w ∧ w.status = .acquired ∧ w.resourceId = k

/-- A lease has a named owner and an end. -/
structure Shaped (db : AcceleratorDb) : Prop where
  named : ∀ k w, db.waiters.find? k = some w → k ≠ []
  ends : ∀ k r o, db.resources.find? k = some r → r.leaseOwner = some o →
    o ≠ [] ∧ r.leaseExpiresAt.isSome = true

/-- The selected owners are those whose leases have run out. -/
def ExactOwners (owners : List Str) (now : Instant) (db : AcceleratorDb) : Prop :=
  ∀ k r o, db.resources.find? k = some r → r.leaseOwner = some o →
    (o ∈ owners ↔ r.lapsed now = true)

variable {owners : List Str} {now : Instant} {db : AcceleratorDb}

theorem Coupled.at_most_one (h : Coupled db) {w w' : Waiter} (hw : w ∈ db.waiters.rows)
    (hw' : w' ∈ db.waiters.rows) (hstatus : w.status = .acquired)
    (hstatus' : w'.status = .acquired) (hsame : w.resourceId = w'.resourceId) : w = w' := by
  obtain ⟨r, hr, howner⟩ := h.owns _ w (Table.find?_of_mem hw) hstatus
  obtain ⟨r', hr', howner'⟩ := h.owns _ w' (Table.find?_of_mem hw') hstatus'
  obtain rfl : r = r' := Option.some.inj (hr.symm.trans (hsame ▸ hr'))
  exact db.waiters.key_injective hw hw' (Option.some.inj (howner.symm.trans howner'))

theorem Shaped.expireLocked (h : Shaped db) : Shaped (expireLocked owners now db) := by
  constructor
  · intro k w hw
    rw [waiter_expireLocked] at hw
    obtain ⟨old, hold, -⟩ := Option.map_eq_some_iff.1 hw
    exact h.named k old hold
  · intro k r o hr howner
    rw [resource_expireLocked] at hr
    obtain ⟨old, hold, rfl⟩ := Option.map_eq_some_iff.1 hr
    by_cases hlapsed : old.lapsed now
    · simp [hlapsed, clearLease] at howner
    · simp only [hlapsed, Bool.false_eq_true, if_false] at howner ⊢
      exact h.ends k old o hold howner

/-- A sweep keeps the coupling if and only if the owners it was given are those whose leases have
run out. -/
theorem coupled_expireLocked_iff (h : Coupled db) :
    Coupled (expireLocked owners now db) ↔ ExactOwners owners now db := by
  constructor
  · intro hswept k r o hr howner
    obtain ⟨w, hw, hstatus, rfl⟩ := h.acquired k r o hr howner
    have hkey : w.waiterId = o := Table.key_of_find? hw
    constructor
    · intro hmem
      by_contra hlapsed
      have hkept : (expireLocked owners now db).resources.find? w.resourceId = some r := by
        simp [resource_expireLocked, hr, hlapsed]
      obtain ⟨w', hw', hstatus', -⟩ := hswept.acquired _ r o hkept howner
      have hout : w.outlived owners now = true := by simp [Waiter.outlived, hstatus, hkey, hmem]
      rw [waiter_expireLocked, hw] at hw'
      simp only [Option.map_some, hout, if_true, Option.some.injEq] at hw'
      rw [← hw'] at hstatus'
      exact absurd hstatus' (by simp [endWaiter])
    · intro hlapsed
      by_contra hmem
      have hout : w.outlived owners now = false := by
        simp [Waiter.outlived, hstatus, hkey, hmem]
      have hkept : (expireLocked owners now db).waiters.find? o = some w := by
        simp [waiter_expireLocked, hw, hout]
      obtain ⟨r', hr', howner'⟩ := hswept.owns o w hkept hstatus
      rw [resource_expireLocked, hr] at hr'
      simp only [Option.map_some, hlapsed, if_true, Option.some.injEq] at hr'
      rw [← hr'] at howner'
      exact absurd howner' (by simp [clearLease])
  · intro hexact
    constructor
    · intro k w hw hstatus
      rw [waiter_expireLocked] at hw
      obtain ⟨old, hold, rfl⟩ := Option.map_eq_some_iff.1 hw
      by_cases hout : old.outlived owners now
      · simp [hout, endWaiter] at hstatus
      · simp only [hout, Bool.false_eq_true, if_false] at hstatus ⊢
        obtain ⟨r, hr, howner⟩ := h.owns k old hold hstatus
        have hkey : old.waiterId = k := Table.key_of_find? hold
        have hmem : k ∉ owners := by
          intro hmem
          simp [Waiter.outlived, hstatus, hkey, hmem] at hout
        have hlapsed : ¬ r.lapsed now = true := fun hl => hmem ((hexact _ r k hr howner).2 hl)
        exact ⟨r, by simp [resource_expireLocked, hr, hlapsed], howner⟩
    · intro k r o hr howner
      rw [resource_expireLocked] at hr
      obtain ⟨old, hold, rfl⟩ := Option.map_eq_some_iff.1 hr
      by_cases hlapsed : old.lapsed now
      · simp [hlapsed, clearLease] at howner
      · simp only [hlapsed, Bool.false_eq_true, if_false] at howner
        obtain ⟨w, hw, hstatus, hresource⟩ := h.acquired k old o hold howner
        have hkey : w.waiterId = o := Table.key_of_find? hw
        have hmem : o ∉ owners := fun hmem => hlapsed ((hexact k old o hold howner).1 hmem)
        have hout : w.outlived owners now = false := by simp [Waiter.outlived, hstatus, hkey, hmem]
        exact ⟨w, by simp [waiter_expireLocked, hw, hout], hstatus, hresource⟩

/-- The owners selected in the transaction itself are exact. -/
theorem exactOwners_expiredOwners (h : Coupled db) : ExactOwners (expiredOwners db now) now db := by
  intro k r o hr howner
  simp only [expiredOwners, List.mem_filterMap, List.mem_filter]
  constructor
  · rintro ⟨r', ⟨hmem, hlapsed⟩, howner'⟩
    obtain ⟨w, hw, -, hresource⟩ := h.acquired k r o hr howner
    obtain ⟨w', hw', -, hresource'⟩ := h.acquired _ r' o (Table.find?_of_mem hmem) howner'
    obtain rfl : w = w' := Option.some.inj (hw.symm.trans hw')
    have hfind' := Table.find?_of_mem hmem
    rw [← hresource', hresource, hr] at hfind'
    exact Option.some.inj hfind' ▸ hlapsed
  · exact fun hlapsed => ⟨r, ⟨Table.mem_of_find? hr, hlapsed⟩, howner⟩

end Coupling

section Grants

variable {waiterId : Str} {now : Instant} {db db' : AcceleratorDb} {lease : AcceleratorLease}

theorem grantable_eq_ok {w : Waiter} {r : Resource} :
    grantable waiterId now db = .ok (some (w, r)) ↔
      (db.waiters.find? waiterId = some w ∧ w.waiting now = true) ∧
        db.resources.find? w.resourceId = some r ∧ r.held now = false ∧
        (first? db w.resourceId now).map (·.waiterId) = some waiterId := by
  unfold grantable
  cases hw : (db.waiters.find? waiterId).filter (·.waiting now) with
  | none =>
    have hnone := Option.filter_eq_none_iff.1 hw
    constructor
    · intro h
      simp at h
    · rintro ⟨⟨hfind, hwaiting⟩, -⟩
      exact absurd hwaiting (hnone w hfind)
  | some w' =>
    obtain ⟨hfind, hwaiting⟩ := Option.filter_eq_some_iff.1 hw
    cases hr : db.resources.find? w'.resourceId with
    | none =>
      constructor
      · intro h
        simp [hr] at h
      · rintro ⟨⟨hfind', -⟩, hr', -⟩
        obtain rfl : w' = w := Option.some.inj (hfind.symm.trans hfind')
        simp [hr] at hr'
    | some r' =>
      constructor
      · intro h
        by_cases hheld : r'.held now <;>
          by_cases hfirst : (first? db w'.resourceId now).map (·.waiterId) = some waiterId <;>
          simp_all
      · rintro ⟨⟨hfind', -⟩, hr', hheld, hfirst⟩
        obtain rfl : w' = w := Option.some.inj (hfind.symm.trans hfind')
        obtain rfl : r' = r := Option.some.inj (hr.symm.trans hr')
        simp [hr, hheld, hfirst]

/-- The ledger after a lease is granted. -/
def granted (w : Waiter) (r : Resource) (expiresAt now : Instant) (db : AcceleratorDb) :
    AcceleratorDb where
  resources := (db.resources.updateKey w.resourceId (fun _ => true)
    (grantLease w (r.fencingToken + 1) expiresAt now)).2
  waiters := (db.waiters.updateKey w.waiterId (·.status = .queued) (acquire now)).2

/-- A commit of `try_acquire`: the sweep alone, or the sweep and the grant. -/
theorem tryAcquire_cases {leaseSeconds : Seconds} {reply : Option AcceleratorLease}
    (h : tryAcquire waiterId leaseSeconds now db = .ok (reply, db')) :
    (reply = none ∧ db' = expireLocked (expiredOwners db now) now db) ∨
      ∃ w r expiresAt, grantable waiterId now (expireLocked (expiredOwners db now) now db) =
          .ok (some (w, r)) ∧
        reply = some ⟨waiterId, w.resourceId, w.lane, w.priority, r.fencingToken + 1, expiresAt⟩ ∧
        db' = granted w r expiresAt now (expireLocked (expiredOwners db now) now db) := by
  simp only [tryAcquire, bind_eq_ok] at h
  obtain ⟨found, hfound, h⟩ := h
  cases found with
  | none =>
    simp only [Except.ok.injEq, Prod.mk.injEq] at h
    exact .inl ⟨h.1.symm, h.2.symm⟩
  | some p =>
    obtain ⟨w, r⟩ := p
    simp only [bind_eq_ok, Except.ok.injEq, Prod.mk.injEq] at h
    obtain ⟨expiresAt, -, hreply, rfl⟩ := h
    obtain ⟨⟨hw, -⟩, -⟩ := grantable_eq_ok.1 hfound
    have hkey : w.waiterId = waiterId := Table.key_of_find? hw
    exact .inr ⟨w, r, expiresAt, hfound, hreply.symm, by rw [granted, hkey]⟩

theorem resource_granted {w : Waiter} {r : Resource} {expiresAt : Instant} {k : Str} :
    (granted w r expiresAt now db).resources.find? k = (db.resources.find? k).map fun r' =>
      if k = w.resourceId then (grantLease w (r.fencingToken + 1) expiresAt now).apply r'
      else r' := by
  rw [granted, Table.find?_updateKey]
  simp

theorem waiter_granted {w : Waiter} {r : Resource} {expiresAt : Instant} {k : Str} :
    (granted w r expiresAt now db).waiters.find? k = (db.waiters.find? k).map fun w' =>
      if k = w.waiterId ∧ w'.status = .queued then (acquire now).apply w' else w' := by
  rw [granted, Table.find?_updateKey]
  simp

/-- After a sweep of its own, a resource whose lease does not run has no owner. -/
theorem free_of_not_held (hshaped : Shaped db) {owners : List Str} {k : Str} {r : Resource}
    (hr : (expireLocked owners now db).resources.find? k = some r) (hheld : r.held now = false) :
    r.leaseOwner = none := by
  by_contra hne
  obtain ⟨o, howner⟩ := Option.ne_none_iff_exists'.1 hne
  obtain ⟨hnamed, hends⟩ := hshaped.expireLocked.ends k r o hr howner
  obtain ⟨expiresAt, hexpires⟩ := Option.isSome_iff_exists.1 hends
  rw [resource_expireLocked] at hr
  obtain ⟨old, -, rfl⟩ := Option.map_eq_some_iff.1 hr
  by_cases hlapsed : old.lapsed now
  · simp [hlapsed, clearLease] at howner
  · simp only [hlapsed, Bool.false_eq_true, if_false] at howner hexpires hheld
    simp only [Resource.lapsed, howner, hexpires, Option.isSome_some, Option.any_some,
      Bool.true_and, decide_eq_true_eq, not_le] at hlapsed
    simp [Resource.held, howner, hexpires, hnamed, hlapsed] at hheld

theorem coupled_granted (h : Coupled db) {w : Waiter} {r : Resource} {expiresAt : Instant}
    (hw : db.waiters.find? w.waiterId = some w) (hqueued : w.status = .queued)
    (hr : db.resources.find? w.resourceId = some r) (hfree : r.leaseOwner = none) :
    Coupled (granted w r expiresAt now db) := by
  constructor
  · intro k w' hw' hstatus
    rw [waiter_granted] at hw'
    obtain ⟨old, hold, rfl⟩ := Option.map_eq_some_iff.1 hw'
    by_cases hk : k = w.waiterId
    · obtain rfl : w = old := Option.some.inj (hw.symm.trans (hk ▸ hold))
      refine ⟨(grantLease w (r.fencingToken + 1) expiresAt now).apply r, ?_, ?_⟩
      · simp [resource_granted, hk, hqueued, acquire, hr]
      · simp [grantLease, hk]
    · simp only [hk, false_and, if_false] at hstatus ⊢
      obtain ⟨r', hr', howner⟩ := h.owns k old hold hstatus
      have hne : old.resourceId ≠ w.resourceId := by
        intro hsame
        rw [hsame, hr] at hr'
        rw [← Option.some.inj hr', hfree] at howner
        exact absurd howner (by simp)
      exact ⟨r', by simp [resource_granted, hr', hne], howner⟩
  · intro k r' o hr' howner
    rw [resource_granted] at hr'
    obtain ⟨old, hold, rfl⟩ := Option.map_eq_some_iff.1 hr'
    by_cases hk : k = w.resourceId
    · simp only [hk, if_true, grantLease, Option.some.injEq] at howner
      refine ⟨(acquire now).apply w, ?_, rfl, hk.symm⟩
      simp [waiter_granted, ← howner, hw, hqueued]
    · simp only [hk, if_false] at howner
      obtain ⟨w', hw', hstatus, hresource⟩ := h.acquired k old o hold howner
      exact ⟨w', by simp [waiter_granted, hw', hstatus], hstatus, hresource⟩

theorem coupled_released (h : Coupled db)
    (hrelease : releaseLease lease now db = .ok (true, db')) : Coupled db' := by
  simp only [releaseLease, Except.ok.injEq, Prod.mk.injEq] at hrelease
  obtain ⟨hreleased, rfl⟩ := hrelease
  obtain ⟨r, hr, hcurrent⟩ := Table.updateKey_fst.1 hreleased
  simp only [AcceleratorLease.current, Bool.and_eq_true, decide_eq_true_eq] at hcurrent
  obtain ⟨w, hw, -, hresource⟩ := h.acquired _ r _ hr hcurrent.1
  simp only [hreleased, if_true]
  constructor
  · intro k w' hw' hstatus
    rw [Table.find?_updateKey] at hw'
    obtain ⟨old, hold, rfl⟩ := Option.map_eq_some_iff.1 hw'
    by_cases hk : k = lease.waiterId ∧ old.status = .acquired
    · simp [hk, endWaiter] at hstatus
    · simp only [decide_eq_true_eq, hk, if_false] at hstatus ⊢
      obtain ⟨r', hr', howner⟩ := h.owns k old hold hstatus
      have hne : ¬ (old.resourceId = lease.resourceId ∧ lease.current r' = true) := by
        rintro ⟨-, hcurrent'⟩
        simp only [AcceleratorLease.current, howner, Option.some.injEq, Bool.and_eq_true,
          decide_eq_true_eq] at hcurrent'
        exact hk ⟨hcurrent'.1, hstatus⟩
      exact ⟨r', by rw [Table.find?_updateKey, hr', Option.map_some, if_neg hne], howner⟩
  · intro k r' o hr' howner
    rw [Table.find?_updateKey] at hr'
    obtain ⟨old, hold, rfl⟩ := Option.map_eq_some_iff.1 hr'
    by_cases hk : k = lease.resourceId ∧ lease.current old = true
    · simp [hk, clearLease] at howner
    · simp only [hk, if_false] at howner
      obtain ⟨w', hw', hstatus, hresource'⟩ := h.acquired k old o hold howner
      have hne : o ≠ lease.waiterId := by
        rintro rfl
        obtain rfl : w = w' := Option.some.inj (hw.symm.trans hw')
        have hsame : k = lease.resourceId := hresource'.symm.trans hresource
        obtain rfl : r = old := Option.some.inj (hr.symm.trans (hsame ▸ hold))
        exact hk ⟨hsame, by simp [AcceleratorLease.current, hcurrent]⟩
      exact ⟨w', by simp [Table.find?_updateKey, hw', hne], hstatus, hresource'⟩

end Grants

section Commits

variable {owners : List Str} {now : Instant} {db db' : AcceleratorDb}

theorem coupled_insert_iff {w : Waiter} {waiters : Table Waiter.waiterId}
    (hinsert : db.waiters.insert? w = some waiters) (hstatus : w.status = .queued) :
    Coupled { db with waiters } ↔ Coupled db := by
  have hfind := Table.find?_insert? hinsert
  have hfresh := (Table.insert?_eq_some hinsert).1
  have hother : ∀ k w', db.waiters.find? k = some w' → waiters.find? k = some w' := by
    intro k w' hw'
    rw [hfind, if_neg]
    · exact hw'
    · rintro rfl
      simp [hfresh] at hw'
  have hback : ∀ k w', waiters.find? k = some w' → w'.status = .acquired →
      db.waiters.find? k = some w' := by
    intro k w' hw' hacquired
    rw [hfind] at hw'
    split at hw'
    · rw [← Option.some.inj hw', hstatus] at hacquired
      exact absurd hacquired (by simp)
    · exact hw'
  constructor
  · intro h
    refine ⟨fun k w' hw' => h.owns k w' (hother k w' hw'), fun k r o hr howner => ?_⟩
    obtain ⟨w', hw', hacquired, hresource⟩ := h.acquired k r o hr howner
    exact ⟨w', hback o w' hw' hacquired, hacquired, hresource⟩
  · intro h
    refine ⟨fun k w' hw' hacquired => h.owns k w' (hback k w' hw' hacquired) hacquired,
      fun k r o hr howner => ?_⟩
    obtain ⟨w', hw', hacquired, hresource⟩ := h.acquired k r o hr howner
    exact ⟨w', hother o w' hw', hacquired, hresource⟩

theorem insertWaiter_spec {a : WaiterArgs} {waiterId reply : Str}
    (h : insertWaiter owners now a waiterId db = .ok (reply, db')) :
    ∃ expiresAt waiters, (expireLocked owners now db).waiters.insert? ⟨waiterId, a.resourceId,
        a.lane, a.priority, .queued, now, expiresAt, none, none⟩ = some waiters ∧
      db' = { expireLocked owners now db with waiters } := by
  simp only [insertWaiter, bind_eq_ok] at h
  obtain ⟨expiresAt, -, h⟩ := h
  split at h
  · simp at h
  · next waiters hinsert =>
    simp only [Except.ok.injEq, Prod.mk.injEq] at h
    exact ⟨expiresAt, waiters, hinsert, h.2.symm⟩

theorem coupled_insertWaiter_iff {a : WaiterArgs} {waiterId reply : Str} (h : Coupled db)
    (hcommit : insertWaiter owners now a waiterId db = .ok (reply, db')) :
    Coupled db' ↔ ExactOwners owners now db := by
  obtain ⟨expiresAt, waiters, hinsert, rfl⟩ := insertWaiter_spec hcommit
  rw [coupled_insert_iff hinsert rfl]
  exact coupled_expireLocked_iff h

theorem coupled_tryAcquire {waiterId : Str} {leaseSeconds : Seconds}
    {reply : Option AcceleratorLease} (h : Coupled db) (hshaped : Shaped db)
    (hcommit : tryAcquire waiterId leaseSeconds now db = .ok (reply, db')) : Coupled db' := by
  have hswept : Coupled (expireLocked (expiredOwners db now) now db) :=
    (coupled_expireLocked_iff h).2 (exactOwners_expiredOwners h)
  obtain ⟨-, rfl⟩ | ⟨w, r, expiresAt, hfound, -, rfl⟩ := tryAcquire_cases hcommit
  · exact hswept
  · obtain ⟨⟨hw, hwaiting⟩, hr, hheld, -⟩ := grantable_eq_ok.1 hfound
    have hkey : w.waiterId = waiterId := Table.key_of_find? hw
    exact coupled_granted hswept (hkey ▸ hw) (waiting_iff.1 hwaiting).1 hr
      (free_of_not_held hshaped hr hheld)

theorem coupled_renew {lease : AcceleratorLease} {expiresAt : Instant} {reply : Bool}
    (h : Coupled db) (hcommit : renew lease expiresAt now db = .ok (reply, db')) :
    Coupled db' := by
  simp only [renew, Except.ok.injEq, Prod.mk.injEq] at hcommit
  obtain ⟨-, rfl⟩ := hcommit
  have howner : ∀ r, (if lease.current r then (extendLease expiresAt now).apply r
      else r).leaseOwner = r.leaseOwner := by
    intro r
    by_cases hcurrent : lease.current r <;> simp [hcurrent, extendLease]
  constructor
  · intro k w hw hstatus
    obtain ⟨r, hr, hrowner⟩ := h.owns k w hw hstatus
    refine ⟨_, by rw [Table.find?_updateKey, hr, Option.map_some], ?_⟩
    split <;> exact hrowner
  · intro k r o hr hrowner
    rw [Table.find?_updateKey] at hr
    obtain ⟨old, hold, rfl⟩ := Option.map_eq_some_iff.1 hr
    refine h.acquired k old o hold ?_
    split at hrowner <;> exact hrowner

theorem coupled_releaseLease {lease : AcceleratorLease} {reply : Bool} (h : Coupled db)
    (hcommit : releaseLease lease now db = .ok (reply, db')) : Coupled db' := by
  cases reply with
  | true => exact coupled_released h hcommit
  | false =>
    simp only [releaseLease, Except.ok.injEq, Prod.mk.injEq] at hcommit
    obtain ⟨hfalse, rfl⟩ := hcommit
    simpa [hfalse, Table.updateKey_snd_of_false hfalse] using h

theorem coupled_withdraw {waiterId : Str} {reply : Unit} (h : Coupled db)
    (hcommit : withdraw waiterId now db = .ok (reply, db')) : Coupled db' := by
  simp only [withdraw, Except.ok.injEq, Prod.mk.injEq, true_and] at hcommit
  obtain rfl := hcommit
  constructor
  · intro k w hw hstatus
    rw [Table.find?_updateKey] at hw
    obtain ⟨old, hold, rfl⟩ := Option.map_eq_some_iff.1 hw
    by_cases hk : k = waiterId ∧ old.status = .queued
    · simp [hk, endWaiter] at hstatus
    · simp only [decide_eq_true_eq, hk, if_false] at hstatus ⊢
      exact h.owns k old hold hstatus
  · intro k r o hr howner
    obtain ⟨w, hw, hstatus, hresource⟩ := h.acquired k r o hr howner
    exact ⟨w, by simp [Table.find?_updateKey, hw, hstatus], hstatus, hresource⟩

end Commits

end HardyAI.Accelerator
