import HardyAI.Foundation.Interleaving
import HardyAI.Foundation.Json
import HardyAI.Foundation.Instant
import HardyAI.Foundation.Table

/-! The waiters and the leases of a shared accelerator. The source stores instants as texts of
one width, which order as the instants do. -/

open Foundation Foundation.Json

namespace HardyAI.Accelerator

section Rows

structure Resource where
  resourceId : Str
  fencingToken : Int
  leaseOwner : Option Str
  leaseLane : Option Str
  leasePriority : Option Int
  leaseExpiresAt : Option Instant
  updatedAt : Instant
  deriving DecidableEq

inductive WaiterStatus
  | queued | acquired | completed | cancelled | expired
  deriving DecidableEq

structure Waiter where
  waiterId : Str
  resourceId : Str
  lane : Str
  priority : Int
  status : WaiterStatus
  createdAt : Instant
  expiresAt : Instant
  acquiredAt : Option Instant
  completedAt : Option Instant
  deriving DecidableEq

structure AcceleratorLease where
  waiterId : Str
  resourceId : Str
  lane : Str
  priority : Int
  fencingToken : Int
  leaseExpiresAt : Instant
  deriving DecidableEq

structure AcceleratorDb where
  resources : Table Resource.resourceId
  waiters : Table Waiter.waiterId

end Rows

section Expiry

def Resource.lapsed (now : Instant) (r : Resource) : Bool :=
  r.leaseOwner.isSome && r.leaseExpiresAt.any (· ≤ now)

def clearLease (now : Instant) : Table.Assignment Resource.resourceId where
  apply r := { r with
    leaseOwner := none, leaseLane := none, leasePriority := none, leaseExpiresAt := none
    updatedAt := now }

/-- A waiter that ends: `completed_at` is set with the status. -/
def endWaiter (status : WaiterStatus) (now : Instant) : Table.Assignment Waiter.waiterId where
  apply w := { w with status, completedAt := some now }

/-- The owners that `_expire_locked` selects. -/
def expiredOwners (db : AcceleratorDb) (now : Instant) : List Str :=
  (db.resources.rows.filter (·.lapsed now)).filterMap (·.leaseOwner)

def expireAcquired (now : Instant) (waiters : Table Waiter.waiterId) (owner : Str) :
    Table Waiter.waiterId :=
  (waiters.updateKey owner (·.status = .acquired) (endWaiter .expired now)).2

/-- The updates of `_expire_locked`, for the owners that it has selected. -/
def expireLocked (owners : List Str) (now : Instant) (db : AcceleratorDb) : AcceleratorDb where
  resources := db.resources.update (·.lapsed now) (clearLease now)
  waiters := (owners.foldl (expireAcquired now) db.waiters).update
    (fun w => w.status = .queued && w.expiresAt ≤ now) (endWaiter .expired now)

end Expiry

section Operations

structure WaiterArgs where
  resourceId : Str
  lane : Str
  priority : Int
  waitSeconds : Seconds

/-- The transaction of `enqueue`, whose owners were selected before it began. -/
def insertWaiter (owners : List Str) (now : Instant) (a : WaiterArgs) (waiterId : Str) :
    Transaction AcceleratorDb Str := fun db => do
  let db := expireLocked owners now db
  let expiresAt ← now.add (a.waitSeconds.atLeast 1000000)
  match db.waiters.insert? ⟨waiterId, a.resourceId, a.lane, a.priority, .queued, now, expiresAt,
    none, none⟩ with
  | none => .error .integrityError
  | some waiters => .ok (waiterId, { db with waiters })

/-- `min(bound, seconds)` of floats, which keeps its first argument where the two cannot be
compared. -/
def atMost (bound : Int) : Seconds → Seconds
  | .micros n => .micros (min n bound)
  | .infinite => .micros bound
  | .nan => .nan

/-- The end of a lease of 5 to 900 seconds. -/
def leaseEnd (now : Instant) (leaseSeconds : Seconds) : Except PyError Instant :=
  now.add ((atMost 900000000 leaseSeconds).atLeast 5000000)

def Waiter.waiting (now : Instant) (w : Waiter) : Bool := w.status = .queued && now < w.expiresAt

/-- `ORDER BY priority DESC, created_at, waiter_id`. -/
def claimOrder (a b : Waiter) : Prop :=
  b.priority < a.priority ∨ a.priority = b.priority ∧
    (a.createdAt < b.createdAt ∨ a.createdAt = b.createdAt ∧ a.waiterId ≤ b.waiterId)

instance : DecidableRel claimOrder := fun _ _ => inferInstanceAs (Decidable (_ ∨ _))

def first? (db : AcceleratorDb) (resourceId : Str) (now : Instant) : Option Waiter :=
  ((db.waiters.rows.filter fun w => w.resourceId = resourceId && w.waiting now).insertionSort
    claimOrder).head?

/-- A lease that is still running. -/
def Resource.held (now : Instant) (r : Resource) : Bool :=
  r.leaseOwner.getD [] ≠ [] && r.leaseExpiresAt.any (now < ·)

def grantLease (w : Waiter) (token : Int) (expiresAt now : Instant) :
    Table.Assignment Resource.resourceId where
  apply r := { r with
    fencingToken := token, leaseOwner := some w.waiterId, leaseLane := some w.lane
    leasePriority := some w.priority, leaseExpiresAt := some expiresAt, updatedAt := now }

def acquire (now : Instant) : Table.Assignment Waiter.waiterId where
  apply w := { w with status := .acquired, acquiredAt := some now }

/-- The waiter and its resource, where the lease can be granted. -/
def grantable (waiterId : Str) (now : Instant) (db : AcceleratorDb) :
    Except PyError (Option (Waiter × Resource)) :=
  match (db.waiters.find? waiterId).filter (·.waiting now) with
  | none => .ok none
  | some w =>
    match db.resources.find? w.resourceId with
    | none => .error (.runtimeError "accelerator_resource_missing")
    | some r =>
      if r.held now then .ok none
      else if (first? db w.resourceId now).map (·.waiterId) = some waiterId then .ok (some (w, r))
      else .ok none

def tryAcquire (waiterId : Str) (leaseSeconds : Seconds) (now : Instant) :
    Transaction AcceleratorDb (Option AcceleratorLease) := fun db => do
  let db := expireLocked (expiredOwners db now) now db
  match ← grantable waiterId now db with
  | none => .ok (none, db)
  | some (w, r) =>
    let expiresAt ← leaseEnd now leaseSeconds
    .ok (some ⟨waiterId, w.resourceId, w.lane, w.priority, r.fencingToken + 1, expiresAt⟩,
      { resources := (db.resources.updateKey w.resourceId (fun _ => true)
          (grantLease w (r.fencingToken + 1) expiresAt now)).2
        waiters := (db.waiters.updateKey waiterId (·.status = .queued) (acquire now)).2 })

def AcceleratorLease.current (lease : AcceleratorLease) (r : Resource) : Bool :=
  r.leaseOwner = some lease.waiterId && r.fencingToken = lease.fencingToken

def extendLease (expiresAt now : Instant) : Table.Assignment Resource.resourceId where
  apply r := { r with leaseExpiresAt := some expiresAt, updatedAt := now }

/-- The update of `heartbeat`. -/
def renew (lease : AcceleratorLease) (expiresAt now : Instant) : Transaction AcceleratorDb Bool :=
  fun db =>
  let renewed := db.resources.updateKey lease.resourceId lease.current (extendLease expiresAt now)
  .ok (renewed.1, { db with resources := renewed.2 })

def releaseLease (lease : AcceleratorLease) (now : Instant) : Transaction AcceleratorDb Bool :=
  fun db =>
  let released := db.resources.updateKey lease.resourceId lease.current (clearLease now)
  let waiters := if released.1 then
      (db.waiters.updateKey lease.waiterId (·.status = .acquired) (endWaiter .completed now)).2
    else db.waiters
  .ok (released.1, ⟨released.2, waiters⟩)

def withdraw (waiterId : Str) (now : Instant) : Transaction AcceleratorDb Unit := fun db =>
  .ok ((), { db with
    waiters := (db.waiters.updateKey waiterId (·.status = .queued) (endWaiter .cancelled now)).2 })

structure Snapshot where
  resourceId : Str
  fencingToken : Int
  leaseLane : Str
  leasePriority : Int
  leaseExpiresAt : Option Instant
  queued : Nat

def gpu : Str := "gpu0"

/-- The transaction of `snapshot`, whose owners were selected before it began. -/
def sweepAndCount (owners : List Str) (now : Instant) : Transaction AcceleratorDb Snapshot :=
  fun db =>
  let db := expireLocked owners now db
  let queued := db.waiters.rows.countP (·.status = .queued)
  .ok (match db.resources.find? gpu with
    | some r => ⟨r.resourceId, r.fencingToken, r.leaseLane.getD [], r.leasePriority.getD 0,
        r.leaseExpiresAt, queued⟩
    | none => ⟨gpu, 0, [], 0, none, queued⟩, db)

end Operations

section Processes

/-- What a process asks for: the clock, the select that `enqueue` and `snapshot` make before
their transaction begins, and the transactions. -/
inductive Op
  | utcNow
  | expiredOwners (now : Instant)
  | insertWaiter (owners : List Str) (now : Instant) (a : WaiterArgs)
  | tryAcquire (waiterId : Str) (leaseSeconds : Seconds) (now : Instant)
  | renew (lease : AcceleratorLease) (expiresAt now : Instant)
  | releaseLease (lease : AcceleratorLease) (now : Instant)
  | withdraw (waiterId : Str) (now : Instant)
  | sweepAndCount (owners : List Str) (now : Instant)

abbrev Op.Reply : Op → Type
  | .utcNow => Instant
  | .expiredOwners _ => List Str
  | .insertWaiter _ _ _ => Except PyError Str
  | .tryAcquire _ _ _ => Except PyError (Option AcceleratorLease)
  | .renew _ _ _ => Except PyError Bool
  | .releaseLease _ _ => Except PyError Bool
  | .withdraw _ _ => Except PyError Unit
  | .sweepAndCount _ _ => Except PyError Snapshot

/-- The database of the ledger beside a clock that never goes back. -/
structure Store where
  db : AcceleratorDb
  clock : Instant

/-- A fresh `uuid4`, which has a text. -/
abbrev FreshId := { id : Str // id ≠ [] }

def onDb {α : Type} (t : Transaction AcceleratorDb α) (s : Store) : Except PyError α × Store :=
  (t.reply s.db, { s with db := t.commit s.db })

def exec (fresh : FreshId) : (op : Op) → Store → op.Reply × Store
  | .utcNow, s => (s.clock, s)
  | .expiredOwners now, s => (expiredOwners s.db now, s)
  | .insertWaiter owners now a, s => onDb (insertWaiter owners now a fresh.val) s
  | .tryAcquire waiterId lease now, s => onDb (tryAcquire waiterId lease now) s
  | .renew lease expiresAt now, s => onDb (renew lease expiresAt now) s
  | .releaseLease lease now, s => onDb (releaseLease lease now) s
  | .withdraw waiterId now, s => onDb (withdraw waiterId now) s
  | .sweepAndCount owners now, s => onDb (sweepAndCount owners now) s

/-- Time passes. -/
def tick (t : Instant) (s : Store) : Unit × Store := ((), { s with clock := max s.clock t })

abbrev Process (α : Type) := Program Op Op.Reply α

abbrev ask (op : Op) : Process op.Reply := .perform op

variable [PythonText]

def isLower (c : CodePoint) : Bool := 0x61 ≤ c.val && c.val ≤ 0x7A

/-- The pattern of `_lane`. -/
def isLane : Str → Bool
  | [] => false
  | c :: cs => isLower c && 1 ≤ cs.length && cs.length ≤ 63 &&
      cs.all fun x => isLower x || (0x30 ≤ x.val && x.val ≤ 0x39) || x.val = 0x5F

/-- `_lane`. -/
def normalizedLane (value : Str) : Except PyError Str := do
  let lane := PythonText.casefold (strip value)
  require (isLane lane) (.valueError "accelerator_lane_invalid")
  .ok lane

/-- The calls of the repository. -/
inductive Call
  | enqueue (lane : Str) (priority : Int) (waitSeconds : Seconds) (resourceId : Str)
  | tryAcquire (waiterId : Str) (leaseSeconds : Seconds)
  | heartbeat (lease : AcceleratorLease) (leaseSeconds : Seconds)
  | release (lease : AcceleratorLease)
  | cancelWaiter (waiterId : Str)
  | snapshot

def enqueue (lane : Str) (priority : Int) (waitSeconds : Seconds) (resourceId : Str) :
    Process Str := do
  let lane ← .ofExcept (normalizedLane lane)
  let now ← ask .utcNow
  let owners ← ask (.expiredOwners now)
  Program.raising (ask (.insertWaiter owners now
    ⟨resourceId, lane, max 1 (min priority 1000), waitSeconds⟩))

def heartbeat (lease : AcceleratorLease) (leaseSeconds : Seconds) : Process Bool := do
  let now ← ask .utcNow
  let expiresAt ← .ofExcept (leaseEnd now leaseSeconds)
  Program.raising (ask (.renew lease expiresAt now))

def snapshot : Process Snapshot := do
  let now ← ask .utcNow
  let owners ← ask (.expiredOwners now)
  Program.raising (ask (.sweepAndCount owners now))

/-- A call with its clock reading first, whose result its caller keeps. -/
def Call.program : Call → Process Unit
  | .enqueue lane priority waitSeconds resourceId => do
    let _ ← Accelerator.enqueue lane priority waitSeconds resourceId
    pure ()
  | .tryAcquire waiterId leaseSeconds => do
    let now ← ask .utcNow
    let _ ← Program.raising (ask (.tryAcquire waiterId leaseSeconds now))
    pure ()
  | .heartbeat lease leaseSeconds => do
    let _ ← Accelerator.heartbeat lease leaseSeconds
    pure ()
  | .release lease => do
    let now ← ask .utcNow
    let _ ← Program.raising (ask (.releaseLease lease now))
    pure ()
  | .cancelWaiter waiterId => do
    let now ← ask .utcNow
    Program.raising (ask (.withdraw waiterId now))
  | .snapshot => do
    let _ ← Accelerator.snapshot
    pure ()

end Processes

end HardyAI.Accelerator
