import HardyAI.Foundation.Table
import HardyAI.Foundation.Trace
import HardyAI.Tasks.Worker

/-! Sessions, and the channels that are bound to them until they have been idle for too long. -/

open Foundation Foundation.Json Foundation.Trace HardyAI.Skills HardyAI.Tasks

namespace HardyAI.Core

section Records

inductive SessionState
  | idle
  | fastCommand
  | conversational
  | awaitingConfirmation
  | awaitingExternalResult
  | errorRecovery
  deriving DecidableEq

def SessionState.value : SessionState → Str
  | .idle => "IDLE"
  | .fastCommand => "FAST_COMMAND"
  | .conversational => "CONVERSATIONAL"
  | .awaitingConfirmation => "AWAITING_CONFIRMATION"
  | .awaitingExternalResult => "AWAITING_EXTERNAL_RESULT"
  | .errorRecovery => "ERROR_RECOVERY"

def SessionState.all : List SessionState :=
  [.idle, .fastCommand, .conversational, .awaitingConfirmation, .awaitingExternalResult,
    .errorRecovery]

inductive SessionOwner
  | system
  | micro
  | main
  deriving DecidableEq

def SessionOwner.value : SessionOwner → Str
  | .system => "system"
  | .micro => "micro_jarvis"
  | .main => "main_jarvis"

def SessionOwner.all : List SessionOwner := [.system, .micro, .main]

structure SessionRecord where
  sessionId : Str
  userId : Str
  source : Str
  state : SessionState := .idle
  owner : SessionOwner := .system
  contextReference : Fields := []
  lastActivityTimestamp : Str
  deriving DecidableEq

def SessionRecord.touch (s : SessionRecord) (timestamp : Str) : SessionRecord :=
  { s with lastActivityTimestamp := timestamp }

structure ChannelSessionBinding (T : Type) where
  channelKey : Str
  sessionId : Str
  lastActivityMonotonic : T
  lastActivityTimestamp : Str
  expiresAtTimestamp : Str

/-- The store behind the sessions, and what `json.loads` makes of a text of its rows: nothing,
where it is no JSON. -/
structure SessionPersistence where
  getSession : Str → Except PyError Json
  upsertSession : SessionRecord → Int → Except PyError Unit
  loads : Str → Except PyError (Option Json)

end Records

section Loading

variable [PythonText]

/-- `str(value or "").strip() or fallback`. -/
def strippedOr (value : Option Json) (fallback : Str) : Except PyError Str := do
  let s := strip (← textOr value [])
  .ok (if s = [] then fallback else s)

def coerceState (value : Option Json) : Except PyError SessionState := do
  let normalized := PythonText.lower (strip (← textOr value []))
  .ok ((SessionState.all.find? fun candidate => candidate.value = normalized).getD .idle)

def coerceOwner (value : Option Json) : Except PyError SessionOwner := do
  let normalized := PythonText.lower (strip (← textOr value []))
  .ok ((SessionOwner.all.find? fun candidate => candidate.value = normalized).getD .system)

/-- The version of the row, in a context that has none of its own. -/
def withContextVersion (payload context : Fields) : Except PyError Fields :=
  if (lookup context "context_version").isSome then .ok context
  else match lookup payload "context_version" with
    | some (.bool b) => .ok (setField context "context_version" (.bool b))
    | some (.int n) => .ok (setField context "context_version" (.int n))
    | some (.float bits) => do
      let version ← pyInt (.float bits)
      .ok (setField context "context_version" (.int version))
    | _ => .ok context

def coerceContextReference (p : SessionPersistence) (payload : Fields) : Except PyError Fields :=
  match lookup payload "context_reference" with
  | some (.obj context) => withContextVersion payload context
  | _ =>
    match lookup payload "context_reference_json" with
    | some (.obj context) => withContextVersion payload context
    | some (.str raw) => do
      match ← p.loads raw with
      | some (.obj context) => withContextVersion payload context
      | _ => .ok []
    | _ => .ok []

/-- `_context_version`. -/
def contextVersion (context : Fields) : Except PyError Int :=
  match lookup context "context_version" with
  | some (.bool b) => .ok (if b then 1 else 0)
  | some (.int n) => .ok (max 0 n)
  | some (.float bits) => do
    let n ← pyInt (.float bits)
    .ok (max 0 n)
  | some (.str raw) =>
    match intOfText (strip raw) with
    | .ok n => .ok (max 0 n)
    | .error _ => .ok 0
  | _ => .ok 0

/-- `_load_from_persistence`. An id that is stripped away leaves the one that was asked for. -/
def loadFromPersistence (persistence : Option SessionPersistence) (sessionId userId source : Str)
    (utcNow : Str) : Except PyError (Option SessionRecord) :=
  match persistence with
  | none => .ok none
  | some p =>
    match p.getSession sessionId with
    | .ok (.obj persisted) => do
      let persistedSessionId := strip (← textOr (lookup persisted "session_id") sessionId)
      let persistedUserId ← strippedOr (lookup persisted "user_id") userId
      let persistedSource ← strippedOr (lookup persisted "source") source
      let persistedState ← coerceState (lookup persisted "state")
      let persistedOwner ← coerceOwner (lookup persisted "owner")
      let persistedTimestamp ← strippedOr (lookup persisted "last_activity_timestamp") utcNow
      let contextReference ← coerceContextReference p persisted
      .ok (some {
        sessionId := if persistedSessionId = [] then sessionId else persistedSessionId
        userId := persistedUserId
        source := persistedSource
        state := persistedState
        owner := persistedOwner
        contextReference := contextReference
        lastActivityTimestamp := persistedTimestamp })
    | _ => .ok none

def save (persistence : Option SessionPersistence) (s : SessionRecord) : Except PyError Unit :=
  match persistence with
  | none => .ok ()
  | some p => do
    let version ← contextVersion s.contextReference
    p.upsertSession s version

end Loading

section Store

/-- Readings of a clock. The float next to a difference grows with the later reading. -/
class ClockReading (T : Type) [LE T] [Sub T] : Prop where
  sub_le_sub {a b : T} (c : T) : a ≤ b → a - c ≤ b - c

instance : ClockReading Int := ⟨fun c h => Int.sub_le_sub_right h c⟩

variable {T : Type} [LinearOrder T] [Sub T]

structure SessionStore (T : Type) where
  sessions : Table (Prod.fst : Str × SessionRecord → Str)
  channelBindings : Table (ChannelSessionBinding.channelKey : ChannelSessionBinding T → Str)
  channelIdleTimeoutSeconds : T

/-- A store of a process that has just begun. -/
def SessionStore.new [One T] (channelIdleTimeoutSeconds : T) : SessionStore T :=
  ⟨∅, ∅, max channelIdleTimeoutSeconds 1⟩

def ChannelSessionBinding.expired (b : ChannelSessionBinding T) (timeout now : T) : Bool :=
  timeout < now - b.lastActivityMonotonic

/-- `_sweep_expired_channel_bindings`, with the number of the bindings that it takes away. -/
def SessionStore.sweepExpiredChannelBindings (s : SessionStore T) (now : T) :
    Nat × SessionStore T :=
  (s.channelBindings.count fun b => b.expired s.channelIdleTimeoutSeconds now,
    { s with
      channelBindings := s.channelBindings.delete fun b =>
        b.expired s.channelIdleTimeoutSeconds now })

structure SessionRequest where
  sessionId : Option Str
  userId : Str
  source : Str
  channelKey : Option Str := none
  forceNewForChannel : Bool := false

/-- `resolved_id` of the id that the caller supplies. -/
def SessionRequest.suppliedId (c : SessionRequest) : Str := strip (c.sessionId.getD [])

/-- The channel of a call: a key of blanks names none. -/
def SessionRequest.channel (c : SessionRequest) : Option Str :=
  let key := strip (c.channelKey.getD [])
  if key = [] then none else some key

/-- The text of a `uuid4`, without a blank at its ends. -/
abbrev NewId := { id : Str // id ≠ [] ∧ strip id = id }

/-- What one call reads of the clocks, the generator of ids and the store behind it. -/
structure Surroundings (T : Type) where
  now : T
  nowTimestamp : Str
  expiresAt : Str
  loadedAt : Str
  touchedAt : Str
  uuid : NewId
  persistence : Option SessionPersistence

/-- The id that a call is bound to by its channel. -/
def SessionStore.bindChannel (s : SessionStore T) (c : SessionRequest) (e : Surroundings T) :
    Str × SessionStore T :=
  match c.channel with
  | none => (c.suppliedId, s)
  | some key =>
    let binding := s.channelBindings.find? key
    let bindingExpired := binding.any fun b => b.expired s.channelIdleTimeoutSeconds e.now
    let id := match binding with
      | some b => if c.forceNewForChannel || bindingExpired then e.uuid.val else b.sessionId
      | none => if c.suppliedId = [] || c.forceNewForChannel then e.uuid.val else c.suppliedId
    (id,
      { s with
        channelBindings := s.channelBindings.upsert {
          channelKey := key
          sessionId := id
          lastActivityMonotonic := e.now
          lastActivityTimestamp := e.nowTimestamp
          expiresAtTimestamp := e.expiresAt } })

/-- The id of the session that a call is about, with the bindings behind it. -/
def SessionStore.resolve (s : SessionStore T) (c : SessionRequest) (e : Surroundings T) :
    Str × SessionStore T :=
  let (id, bound) := (s.sweepExpiredChannelBindings e.now).2.bindChannel c e
  (if id = [] then e.uuid.val else id, bound)

variable [PythonText]

def SessionStore.getOrCreate (s : SessionStore T) (c : SessionRequest) (e : Surroundings T) :
    Except PyError SessionRecord × SessionStore T :=
  let (resolvedId, bound) := s.resolve c e
  let found : Except PyError SessionRecord :=
    match bound.sessions.find? resolvedId with
    | some p => .ok p.2
    | none => do
      let loaded ← loadFromPersistence e.persistence resolvedId c.userId c.source e.loadedAt
      .ok (loaded.getD {
        sessionId := resolvedId
        userId := c.userId
        source := c.source
        lastActivityTimestamp := e.loadedAt })
  match found with
  | .error raised => (.error raised, bound)
  | .ok session =>
    let touched := session.touch e.touchedAt
    ((save e.persistence touched).map fun _ => touched,
      { bound with sessions := bound.sessions.upsert (resolvedId, touched) })

end Store

section Runs

variable {T : Type} [LinearOrder T] [Sub T]

/-- A call as it went: `sessionId` is the id of the session that it was about. -/
structure SessionCall (T : Type) where
  request : SessionRequest
  now : T
  sessionId : Str
  reply : Except PyError SessionRecord

structure ChannelRun (T : Type) where
  store : SessionStore T
  calls : List (SessionCall T)

inductive SessionOp (T : Type)
  | getOrCreate (c : SessionRequest) (e : Surroundings T)
  | sweepExpiredChannelBindings (now : T)

def SessionOp.now : SessionOp T → T
  | .getOrCreate _ e => e.now
  | .sweepExpiredChannelBindings now => now

/-- The ids that a call can bring to the store. -/
def SessionOp.ids : SessionOp T → List Str
  | .getOrCreate c e => [c.suppliedId, e.uuid.val]
  | .sweepExpiredChannelBindings _ => []

def SessionOp.drawn : SessionOp T → List Str
  | .getOrCreate _ e => [e.uuid.val]
  | .sweepExpiredChannelBindings _ => []

/-- A `uuid4` is no id that was drawn or supplied before. -/
def DrawsAfresh (ops : List (SessionOp T)) : Prop :=
  ops.Pairwise fun a b => ∀ id ∈ b.drawn, id ∉ a.ids

def NondecreasingClock (ops : List (SessionOp T)) : Prop :=
  ops.Pairwise fun a b => a.now ≤ b.now

/-- The row of an id has this id. -/
def SessionPersistence.ById (p : SessionPersistence) : Prop :=
  ∀ id persisted, p.getSession id = .ok (.obj persisted) →
    lookup persisted "session_id" = some (.str id)

def SessionOp.LoadsById : SessionOp T → Prop
  | .getOrCreate _ e => ∀ p, e.persistence = some p → p.ById
  | .sweepExpiredChannelBindings _ => True

variable [PythonText]

def ChannelRun.step (s : ChannelRun T) : SessionOp T → ChannelRun T
  | .getOrCreate c e =>
    { store := (s.store.getOrCreate c e).2
      calls := s.calls ++ [⟨c, e.now, (s.store.resolve c e).1, (s.store.getOrCreate c e).1⟩] }
  | .sweepExpiredChannelBindings now =>
    { s with store := (s.store.sweepExpiredChannelBindings now).2 }

/-- A run of a process from its begin on. -/
def ChannelRun.after [One T] (timeout : T) (ops : List (SessionOp T)) : ChannelRun T :=
  run ChannelRun.step ⟨.new timeout, []⟩ ops

end Runs

section Bindings

variable {T : Type} [LinearOrder T] [Sub T] {s : SessionStore T} {c : SessionRequest}
  {e : Surroundings T} {k : Str}

theorem find?_swept (now : T) :
    (s.sweepExpiredChannelBindings now).2.channelBindings.find? k =
      (s.channelBindings.find? k).filter fun b => !b.expired s.channelIdleTimeoutSeconds now :=
  Table.find?_delete _ _ k

/-- What a call makes of the session that its channel is bound to still. -/
def channelId (c : SessionRequest) (e : Surroundings T) : Option Str → Str
  | some id => if c.forceNewForChannel then e.uuid.val else id
  | none => if c.suppliedId = [] || c.forceNewForChannel then e.uuid.val else c.suppliedId

/-- Behind the sweep no binding is expired, and only the missing ones are left to the caller. -/
theorem bindChannel_id (hchannel : c.channel = some k) :
    ((s.sweepExpiredChannelBindings e.now).2.bindChannel c e).1 =
      channelId c e (((s.sweepExpiredChannelBindings e.now).2.channelBindings.find? k).map
        ChannelSessionBinding.sessionId) := by
  have hfind := find?_swept (s := s) (k := k) e.now
  simp only [SessionStore.bindChannel, hchannel]
  cases hb : (s.sweepExpiredChannelBindings e.now).2.channelBindings.find? k with
  | none => rfl
  | some b =>
    have hlive : b.expired s.channelIdleTimeoutSeconds e.now = false := by
      rw [hb] at hfind
      simpa using (Option.filter_eq_some_iff.1 hfind.symm).2
    have htimeout : (s.sweepExpiredChannelBindings e.now).2.channelIdleTimeoutSeconds =
      s.channelIdleTimeoutSeconds := rfl
    simp [channelId, htimeout, hlive]

theorem find?_bindChannel (s : SessionStore T) (c : SessionRequest) (e : Surroundings T) (k : Str) :
    (s.bindChannel c e).2.channelBindings.find? k =
      if c.channel = some k then some ⟨k, (s.bindChannel c e).1, e.now, e.nowTimestamp, e.expiresAt⟩
      else s.channelBindings.find? k := by
  unfold SessionStore.bindChannel
  cases hchannel : c.channel with
  | none => simp
  | some key =>
    simp only [Table.find?_upsert, Option.some.injEq, eq_comm (a := key)]
    split
    · next h => subst h; rfl
    · rfl

end Bindings

section Sessions

variable [PythonText]

/-- What is loaded for an id that is stripped has this id. -/
theorem loadFromPersistence_id {persistence : Option SessionPersistence}
    {sessionId userId source utcNow : Str} {r : SessionRecord}
    (hById : ∀ p, persistence = some p → p.ById) (hstrip : strip sessionId = sessionId)
    (hne : sessionId ≠ [])
    (h : loadFromPersistence persistence sessionId userId source utcNow = .ok (some r)) :
    r.sessionId = sessionId := by
  unfold loadFromPersistence at h
  cases persistence with
  | none => simp at h
  | some p =>
    dsimp only at h
    split at h
    · next persisted hget =>
      have htext : textOr (lookup persisted "session_id") sessionId = .ok sessionId := by
        rw [hById p rfl sessionId persisted hget]
        simp [textOr, truthy, hne, pyStr]
      rw [htext] at h
      obtain ⟨asked, hasked, h⟩ := bind_eq_ok.1 h
      obtain rfl : sessionId = asked := Except.ok.inj hasked
      obtain ⟨_, -, h⟩ := bind_eq_ok.1 h
      obtain ⟨_, -, h⟩ := bind_eq_ok.1 h
      obtain ⟨_, -, h⟩ := bind_eq_ok.1 h
      obtain ⟨_, -, h⟩ := bind_eq_ok.1 h
      obtain ⟨_, -, h⟩ := bind_eq_ok.1 h
      obtain ⟨_, -, h⟩ := bind_eq_ok.1 h
      simp only [Except.ok.injEq, Option.some.injEq] at h
      subst h
      simp [hstrip]
    · simp at h

variable {T : Type} [LinearOrder T] [Sub T] {s : SessionStore T} {c : SessionRequest}
  {e : Surroundings T} {k : Str}

/-- The key of a session is its id. -/
def SessionStore.Keyed (s : SessionStore T) : Prop :=
  ∀ id p, s.sessions.find? id = some p → p.2.sessionId = id

/-- A call changes the bindings by its channel only, whatever becomes of its session. -/
theorem getOrCreate_bindings :
    (s.getOrCreate c e).2.channelBindings = (s.resolve c e).2.channelBindings := by
  unfold SessionStore.getOrCreate
  dsimp only
  split <;> rfl

theorem getOrCreate_timeout :
    (s.getOrCreate c e).2.channelIdleTimeoutSeconds = s.channelIdleTimeoutSeconds := by
  have hbind : (s.resolve c e).2.channelIdleTimeoutSeconds = s.channelIdleTimeoutSeconds := by
    unfold SessionStore.resolve SessionStore.bindChannel
    dsimp only
    split <;> rfl
  unfold SessionStore.getOrCreate
  dsimp only
  split <;> exact hbind

omit [PythonText] in
theorem resolve_sessions : (s.resolve c e).2.sessions = s.sessions := by
  unfold SessionStore.resolve SessionStore.bindChannel
  dsimp only
  split <;> rfl

/-- The session of a call has the id that the call was resolved to. -/
theorem getOrCreate_keyed (hkeyed : s.Keyed)
    (hById : ∀ p, e.persistence = some p → p.ById)
    (hstrip : strip (s.resolve c e).1 = (s.resolve c e).1) (hne : (s.resolve c e).1 ≠ []) :
    (s.getOrCreate c e).2.Keyed ∧
      ∀ session, (s.getOrCreate c e).1 = .ok session → session.sessionId = (s.resolve c e).1 := by
  have hbound : (s.resolve c e).2.Keyed := by
    unfold SessionStore.Keyed
    rw [resolve_sessions]
    exact hkeyed
  unfold SessionStore.getOrCreate
  dsimp only
  split
  · exact ⟨hbound, fun _ h => by cases h⟩
  · next session hfound =>
    have hid : session.sessionId = (s.resolve c e).1 := by
      split at hfound
      · next p hp =>
        obtain rfl := Except.ok.inj hfound
        exact hbound _ p hp
      · obtain ⟨loaded, hloaded, h⟩ := bind_eq_ok.1 hfound
        cases loaded with
        | none =>
          obtain rfl := Except.ok.inj h
          rfl
        | some r =>
          obtain rfl := Except.ok.inj h
          exact loadFromPersistence_id hById hstrip hne hloaded
    refine ⟨fun id p hp => ?_, fun r hr => ?_⟩
    · rw [Table.find?_upsert] at hp
      split at hp
      · next h =>
        obtain rfl := Option.some.inj hp
        exact hid.trans h.symm
      · exact hbound id p hp
    · obtain ⟨_, -, h⟩ := map_eq_ok.1 hr
      rw [← h]
      exact hid

end Sessions

section Calls

variable {T : Type}

/-- The calls with the channel key `k`. -/
def callsOf (k : Str) (calls : List (SessionCall T)) : List (SessionCall T) :=
  calls.filter fun call => call.request.channel = some k

def lastCall (k : Str) (calls : List (SessionCall T)) : Option (SessionCall T) :=
  (callsOf k calls).getLast?

theorem callsOf_concat (k : Str) (calls : List (SessionCall T)) (call : SessionCall T) :
    callsOf k (calls ++ [call]) =
      if call.request.channel = some k then callsOf k calls ++ [call] else callsOf k calls := by
  unfold callsOf
  rw [List.filter_append]
  by_cases h : call.request.channel = some k <;> simp [h]

theorem lastCall_concat (k : Str) (calls : List (SessionCall T)) (call : SessionCall T) :
    lastCall k (calls ++ [call]) =
      if call.request.channel = some k then some call else lastCall k calls := by
  unfold lastCall
  rw [callsOf_concat]
  split <;> simp

theorem mem_of_lastCall {k : Str} {calls : List (SessionCall T)} {last : SessionCall T}
    (h : lastCall k calls = some last) : last ∈ calls :=
  List.mem_of_mem_filter (List.mem_of_getLast? h)

end Calls

section Law

variable {T : Type} [LinearOrder T] [Sub T]

/-- The channel has been idle for longer than the timeout since its previous call. -/
def IdleSince (timeout now : T) (last : SessionCall T) : Prop := timeout < now - last.now

instance (timeout now : T) (last : SessionCall T) : Decidable (IdleSince timeout now last) :=
  inferInstanceAs (Decidable (_ < _))

/-- What a call is to return, as far as its channel decides: the session of the previous call of
the channel, or one that the channel never had. -/
structure ChannelLaw (timeout : T) (earlier : List (SessionCall T)) (c : SessionRequest) (now : T)
    (session : SessionRecord) : Prop where
  continued : ∀ k last, c.channel = some k → lastCall k earlier = some last →
    ¬IdleSince timeout now last → c.forceNewForChannel = false →
      session.sessionId = last.sessionId
  renewed : ∀ k, c.channel = some k →
    (c.forceNewForChannel = true ∨
      ∃ last, lastCall k earlier = some last ∧ IdleSince timeout now last) →
    ∀ old ∈ callsOf k earlier, session.sessionId ≠ old.sessionId

/-- A call that is not forced and finds its channel idle for too long does not supply the id of an
earlier session of the channel. -/
def SuppliesNoOldId (timeout : T) (earlier : List (SessionCall T)) (c : SessionRequest) (now : T) :
    Prop :=
  ∀ k last, c.channel = some k → c.forceNewForChannel = false → lastCall k earlier = some last →
    IdleSince timeout now last → ∀ old ∈ callsOf k earlier, c.suppliedId ≠ old.sessionId

/-- The binding of a channel is the one of its last call, or was swept when it was expired. -/
def BoundToLast (ops : List (SessionOp T)) (s : SessionStore T) (k : Str) :
    Option (SessionCall T) → Prop
  | none => s.channelBindings.find? k = none
  | some last =>
    (∃ b, s.channelBindings.find? k = some b ∧ b.sessionId = last.sessionId ∧
      b.lastActivityMonotonic = last.now) ∨
    s.channelBindings.find? k = none ∧
      ∀ now, (∀ op ∈ ops, op.now ≤ now) → IdleSince s.channelIdleTimeoutSeconds now last

/-- What holds after every run. -/
structure Consistent (ops : List (SessionOp T)) (s : ChannelRun T) : Prop where
  bound : ∀ k, BoundToLast ops s.store k (lastCall k s.calls)
  brought : ∀ call ∈ s.calls, ∃ op ∈ ops, call.sessionId ∈ op.ids
  stripped : ∀ call ∈ s.calls, call.sessionId ≠ [] ∧ strip call.sessionId = call.sessionId
  keyed : s.store.Keyed
  answered : ∀ call ∈ s.calls, ∀ session, call.reply = .ok session →
    session.sessionId = call.sessionId

variable {ops : List (SessionOp T)} {s : ChannelRun T} {now : T} {k : Str}

theorem BoundToLast.congr {s s' : SessionStore T} {last : Option (SessionCall T)}
    (hbinding : s'.channelBindings.find? k = s.channelBindings.find? k)
    (htimeout : s'.channelIdleTimeoutSeconds = s.channelIdleTimeoutSeconds)
    (h : BoundToLast ops s k last) : BoundToLast ops s' k last := by
  cases last with
  | none => exact hbinding.trans h
  | some last =>
    unfold BoundToLast
    rw [hbinding, htimeout]
    exact h

/-- The binding that the sweep of a call leaves a channel. -/
theorem swept_of_bound [ClockReading T] {last : Option (SessionCall T)}
    (h : BoundToLast ops s.store k last) (hnow : ∀ op ∈ ops, op.now ≤ now) :
    let swept := (s.store.sweepExpiredChannelBindings now).2.channelBindings.find? k
    (∀ l, last = some l → ¬IdleSince s.store.channelIdleTimeoutSeconds now l →
      ∃ b, swept = some b ∧ b.sessionId = l.sessionId ∧ b.lastActivityMonotonic = l.now) ∧
    ((∀ l, last = some l → IdleSince s.store.channelIdleTimeoutSeconds now l) → swept = none) := by
  dsimp only
  rw [find?_swept]
  cases last with
  | none =>
    have hnone : s.store.channelBindings.find? k = none := h
    rw [hnone]
    exact ⟨fun l hl => (Option.some_ne_none l hl.symm).elim, fun _ => rfl⟩
  | some last =>
    rcases h with ⟨b, hb, hid, htime⟩ | ⟨hnone, hidle⟩
    · have hexpired : b.expired s.store.channelIdleTimeoutSeconds now = true ↔
          IdleSince s.store.channelIdleTimeoutSeconds now last := by
        simp [ChannelSessionBinding.expired, IdleSince, htime]
      rw [hb]
      constructor
      · intro l hl hlive
        obtain rfl := Option.some.inj hl
        have hlive' : b.expired s.store.channelIdleTimeoutSeconds now = false := by
          rw [← Bool.not_eq_true, hexpired]
          exact hlive
        exact ⟨b, by simp [hlive'], hid, htime⟩
      · intro hall
        simp [hexpired.2 (hall last rfl)]
    · rw [hnone]
      refine ⟨fun l hl hlive => ?_, fun _ => rfl⟩
      obtain rfl := Option.some.inj hl
      exact absurd (hidle now hnow) hlive

/-- A sweep keeps the bindings that are not expired, and an expired one stays so. -/
theorem bound_swept [ClockReading T] {last : Option (SessionCall T)} {op : SessionOp T}
    (h : BoundToLast ops s.store k last) (hnow : ∀ earlier ∈ ops, earlier.now ≤ op.now) :
    BoundToLast (ops ++ [op]) (s.store.sweepExpiredChannelBindings op.now).2 k last := by
  obtain ⟨hlive, hidle⟩ := swept_of_bound h hnow
  cases last with
  | none => exact hidle fun l hl => (Option.some_ne_none l hl.symm).elim
  | some last =>
    by_cases hlast : IdleSince s.store.channelIdleTimeoutSeconds op.now last
    · refine .inr ⟨hidle fun l hl => Option.some.inj hl ▸ hlast, fun now hafter => ?_⟩
      have hop : op.now ≤ now := hafter op (by simp)
      exact lt_of_lt_of_le hlast (ClockReading.sub_le_sub last.now hop)
    · exact .inl (hlive last rfl hlast)

/-- The session that a channel is bound to still, from its calls alone. -/
def liveSession (timeout now : T) (k : Str) (calls : List (SessionCall T)) : Option Str :=
  ((lastCall k calls).filter fun last => !decide (IdleSince timeout now last)).map
    SessionCall.sessionId

theorem swept_session [ClockReading T] (h : Consistent ops s) (hnow : ∀ op ∈ ops, op.now ≤ now)
    (k : Str) :
    ((s.store.sweepExpiredChannelBindings now).2.channelBindings.find? k).map
        ChannelSessionBinding.sessionId =
      liveSession s.store.channelIdleTimeoutSeconds now k s.calls := by
  obtain ⟨hlive, hidle⟩ := swept_of_bound (h.bound k) hnow
  unfold liveSession
  cases hlast : lastCall k s.calls with
  | none =>
    rw [hidle fun l hl => (Option.some_ne_none l (hl.symm.trans hlast)).elim]
    rfl
  | some last =>
    by_cases hl : IdleSince s.store.channelIdleTimeoutSeconds now last
    · rw [hidle fun l hl' => Option.some.inj (hlast.symm.trans hl') ▸ hl]
      simp [hl]
    · obtain ⟨b, hb, hid, -⟩ := hlive last hlast hl
      rw [hb]
      simp [hl, hid]

omit [LinearOrder T] [Sub T] in
theorem channelId_ne_nil {c : SessionRequest} {e : Surroundings T} {live : Option Str}
    (h : ∀ id ∈ live, id ≠ []) : channelId c e live ≠ [] := by
  have huuid := e.uuid.property.1
  unfold channelId
  cases live with
  | none =>
    dsimp only
    split
    · exact huuid
    · next hsupplied => simp_all
  | some id =>
    dsimp only
    split
    · exact huuid
    · exact h id rfl

/-- The id of a call with a channel key, which the calls of other channels leave alone, is the one
that the channel is bound to. -/
theorem resolve_channel [ClockReading T] {c : SessionRequest} {e : Surroundings T}
    (h : Consistent ops s) (hnow : ∀ op ∈ ops, op.now ≤ e.now) (hchannel : c.channel = some k) :
    (s.store.resolve c e).1 =
        channelId c e (liveSession s.store.channelIdleTimeoutSeconds e.now k s.calls) ∧
      ((s.store.sweepExpiredChannelBindings e.now).2.bindChannel c e).1 =
        (s.store.resolve c e).1 := by
  have hid := bindChannel_id (s := s.store) (e := e) hchannel
  rw [swept_session h hnow] at hid
  have hne : channelId c e (liveSession s.store.channelIdleTimeoutSeconds e.now k s.calls) ≠ [] := by
    refine channelId_ne_nil fun id hmem => ?_
    obtain ⟨last, hlast, rfl⟩ := Option.map_eq_some_iff.1 hmem
    exact (h.stripped last (mem_of_lastCall (Option.filter_eq_some_iff.1 hlast).1)).1
  simp only [SessionStore.resolve, hid, hne, if_false, and_self]

/-- The id that a call is resolved to is drawn, supplied or the one of an earlier call. -/
theorem resolve_source [ClockReading T] {c : SessionRequest} {e : Surroundings T}
    (h : Consistent ops s) (hnow : ∀ op ∈ ops, op.now ≤ e.now) :
    (s.store.resolve c e).1 = e.uuid.val ∨
      (s.store.resolve c e).1 = c.suppliedId ∧ c.suppliedId ≠ [] ∨
      ∃ call ∈ s.calls, (s.store.resolve c e).1 = call.sessionId := by
  cases hchannel : c.channel with
  | none =>
    by_cases hsupplied : c.suppliedId = []
    · exact .inl (by simp [SessionStore.resolve, SessionStore.bindChannel, hchannel, hsupplied])
    · exact .inr (.inl ⟨by
        simp [SessionStore.resolve, SessionStore.bindChannel, hchannel, hsupplied], hsupplied⟩)
  | some k =>
    rw [(resolve_channel h hnow hchannel).1]
    cases hlive : liveSession s.store.channelIdleTimeoutSeconds e.now k s.calls with
    | none =>
      unfold channelId
      dsimp only
      split
      · exact .inl rfl
      · next hsupplied =>
        exact .inr (.inl ⟨rfl, fun hnil => hsupplied (by simp [hnil])⟩)
    | some id =>
      unfold channelId
      dsimp only
      split
      · exact .inl rfl
      · obtain ⟨last, hlast, rfl⟩ := Option.map_eq_some_iff.1 hlive
        exact .inr (.inr ⟨last, mem_of_lastCall (Option.filter_eq_some_iff.1 hlast).1, rfl⟩)

theorem resolve_stripped [ClockReading T] {c : SessionRequest} {e : Surroundings T}
    (h : Consistent ops s) (hnow : ∀ op ∈ ops, op.now ≤ e.now) :
    (s.store.resolve c e).1 ≠ [] ∧ strip (s.store.resolve c e).1 = (s.store.resolve c e).1 := by
  rcases resolve_source h hnow (c := c) with hid | ⟨hid, hne⟩ | ⟨call, hcall, hid⟩
  · rw [hid]
    exact e.uuid.property
  · rw [hid]
    exact ⟨hne, strip_strip _⟩
  · rw [hid]
    exact h.stripped call hcall

variable [PythonText]

/-- One operation keeps what holds after a run. -/
theorem consistent_step [ClockReading T] {op : SessionOp T} (h : Consistent ops s)
    (hnow : ∀ earlier ∈ ops, earlier.now ≤ op.now) (hloads : op.LoadsById) :
    Consistent (ops ++ [op]) (s.step op) := by
  cases op with
  | sweepExpiredChannelBindings now =>
    exact
      { bound := fun k => bound_swept (h.bound k) hnow
        brought := fun call hcall => by
          obtain ⟨earlier, hmem, hid⟩ := h.brought call hcall
          exact ⟨earlier, List.mem_append_left _ hmem, hid⟩
        stripped := h.stripped
        keyed := h.keyed
        answered := h.answered }
  | getOrCreate c e =>
    obtain ⟨hne, hstrip⟩ := resolve_stripped h hnow (c := c)
    obtain ⟨hkeyed, hanswer⟩ := getOrCreate_keyed h.keyed hloads hstrip hne
    have hbinding : ∀ k, (s.step (.getOrCreate c e)).store.channelBindings.find? k =
        if c.channel = some k then
          some ⟨k, ((s.store.sweepExpiredChannelBindings e.now).2.bindChannel c e).1, e.now,
            e.nowTimestamp, e.expiresAt⟩
        else (s.store.sweepExpiredChannelBindings e.now).2.channelBindings.find? k := by
      intro k
      rw [← find?_bindChannel]
      exact congrArg (Table.find? · k) getOrCreate_bindings
    have hcalls : ∀ call ∈ (s.step (.getOrCreate c e)).calls, call ∈ s.calls ∨
        call = ⟨c, e.now, (s.store.resolve c e).1, (s.store.getOrCreate c e).1⟩ := by
      intro call hcall
      simpa [ChannelRun.step] using hcall
    refine
      { bound := fun k => ?_
        brought := fun call hcall => ?_
        stripped := fun call hcall => ?_
        keyed := hkeyed
        answered := fun call hcall => ?_ }
    · have hlast : lastCall k (s.step (.getOrCreate c e)).calls =
          if c.channel = some k then
            some ⟨c, e.now, (s.store.resolve c e).1, (s.store.getOrCreate c e).1⟩
          else lastCall k s.calls := lastCall_concat k s.calls _
      rw [hlast]
      by_cases hk : c.channel = some k
      · rw [if_pos hk]
        refine .inl ⟨_, by rw [hbinding, if_pos hk], ?_, rfl⟩
        exact (resolve_channel h hnow hk).2
      · rw [if_neg hk]
        have hswept : BoundToLast (ops ++ [.getOrCreate c e])
            (s.store.sweepExpiredChannelBindings e.now).2 k (lastCall k s.calls) :=
          bound_swept (h.bound k) hnow
        have htimeout : (s.step (.getOrCreate c e)).store.channelIdleTimeoutSeconds =
          (s.store.sweepExpiredChannelBindings e.now).2.channelIdleTimeoutSeconds :=
          getOrCreate_timeout
        exact hswept.congr (by rw [hbinding, if_neg hk]) htimeout
    · rcases hcalls call hcall with hold | rfl
      · obtain ⟨earlier, hmem, hid⟩ := h.brought call hold
        exact ⟨earlier, List.mem_append_left _ hmem, hid⟩
      · rcases resolve_source h hnow (c := c) with hid | ⟨hid, -⟩ | ⟨old, hold, hid⟩
        · exact ⟨.getOrCreate c e, by simp, by simp [SessionOp.ids, hid]⟩
        · exact ⟨.getOrCreate c e, by simp, by simp [SessionOp.ids, hid]⟩
        · obtain ⟨earlier, hmem, hids⟩ := h.brought old hold
          exact ⟨earlier, List.mem_append_left _ hmem, hid ▸ hids⟩
    · rcases hcalls call hcall with hold | rfl
      · exact h.stripped call hold
      · exact ⟨hne, hstrip⟩
    · rcases hcalls call hcall with hold | rfl
      · exact h.answered call hold
      · exact hanswer

/-- Every run is consistent. -/
theorem consistent_after [One T] [ClockReading T] (timeout : T) (ops : List (SessionOp T))
    (hclock : NondecreasingClock ops) (hloads : ∀ op ∈ ops, op.LoadsById) :
    Consistent ops (.after timeout ops) := by
  induction ops using List.reverseRecOn with
  | nil =>
    exact
      { bound := fun k => rfl
        brought := fun call hcall => by cases hcall
        stripped := fun call hcall => by cases hcall
        keyed := fun id p hp => by cases hp
        answered := fun call hcall => by cases hcall }
  | append_singleton ops op ih =>
    have hsplit := List.pairwise_append.1 hclock
    have hbefore := ih hsplit.1 fun earlier hmem => hloads earlier (List.mem_append_left _ hmem)
    rw [ChannelRun.after, run_concat]
    refine consistent_step hbefore (fun earlier hmem => ?_) (hloads op (by simp))
    exact hsplit.2.2 earlier hmem op (by simp)

theorem timeout_after [One T] (timeout : T) (ops : List (SessionOp T)) :
    (ChannelRun.after timeout ops).store.channelIdleTimeoutSeconds = max timeout 1 := by
  have hstep : ∀ (s : ChannelRun T) (op : SessionOp T),
      s.store.channelIdleTimeoutSeconds = max timeout 1 →
        (s.step op).store.channelIdleTimeoutSeconds = max timeout 1 := by
    intro s op h
    cases op with
    | getOrCreate c e => exact getOrCreate_timeout.trans h
    | sweepExpiredChannelBindings now => exact h
  exact run_invariant hstep rfl ops

end Law

section Claim

variable {T : Type} [LinearOrder T] [Sub T] {c : SessionRequest} {e : Surroundings T}

omit [LinearOrder T] [Sub T] in
theorem channelId_forced {live : Option Str} (h : c.forceNewForChannel = true) :
    channelId c e live = e.uuid.val := by
  cases live <;> simp [channelId, h]

theorem liveSession_idle {timeout now : T} {k : Str} {calls : List (SessionCall T)}
    {last : SessionCall T} (hlast : lastCall k calls = some last) :
    liveSession timeout now k calls =
      if IdleSince timeout now last then none else some last.sessionId := by
  unfold liveSession
  rw [hlast]
  by_cases h : IdleSince timeout now last <;> simp [h]

/-- An id that the channel decides is lawful where it is not drawn from the earlier ones, and the
caller supplies none of them. -/
theorem channelLaw_iff {timeout : T} {calls : List (SessionCall T)} {session : SessionRecord}
    (hid : ∀ k, c.channel = some k →
      session.sessionId = channelId c e (liveSession timeout e.now k calls))
    (hfresh : ∀ old ∈ calls, e.uuid.val ≠ old.sessionId)
    (htexts : ∀ old ∈ calls, old.sessionId ≠ []) :
    ChannelLaw timeout calls c e.now session ↔ SuppliesNoOldId timeout calls c e.now := by
  constructor
  · intro hlaw k last hchannel hforce hlast hidle old hold hsame
    have hne : c.suppliedId ≠ [] := hsame ▸ htexts old (List.mem_of_mem_filter hold)
    have hsession : session.sessionId = c.suppliedId := by
      rw [hid k hchannel, liveSession_idle hlast, if_pos hidle]
      simp [channelId, hne, hforce]
    exact hlaw.renewed k hchannel (.inr ⟨last, hlast, hidle⟩) old hold (hsession.trans hsame)
  · intro hsupplies
    refine ⟨fun k last hchannel hlast hlive hforce => ?_, fun k hchannel hcase old hold => ?_⟩
    · rw [hid k hchannel, liveSession_idle hlast, if_neg hlive]
      simp [channelId, hforce]
    · have holds : e.uuid.val ≠ old.sessionId := hfresh old (List.mem_of_mem_filter hold)
      rw [hid k hchannel]
      cases hforce : c.forceNewForChannel with
      | true => exact channelId_forced hforce ▸ holds
      | false =>
        obtain ⟨last, hlast, hidle⟩ : ∃ last, lastCall k calls = some last ∧
            IdleSince timeout e.now last := by simpa [hforce] using hcase
        rw [liveSession_idle hlast, if_pos hidle]
        unfold channelId
        dsimp only
        split
        · exact holds
        · exact hsupplies k last hchannel hforce hlast hidle old hold

variable [One T] [ClockReading T] [PythonText]

/-- After every run, a call with a channel key returns what its channel is to give it if and only
if it does not find the channel expired and supply the id of an earlier session of it. -/
theorem getOrCreate_channel_law (timeout : T) (ops : List (SessionOp T)) (c : SessionRequest)
    (e : Surroundings T) (hclock : NondecreasingClock (ops ++ [.getOrCreate c e]))
    (hdrawn : DrawsAfresh (ops ++ [.getOrCreate c e]))
    (hloads : ∀ op ∈ ops ++ [.getOrCreate c e], op.LoadsById) {session : SessionRecord}
    (hreply : ((ChannelRun.after timeout ops).store.getOrCreate c e).1 = .ok session) :
    (∀ call ∈ (ChannelRun.after timeout ops).calls, ∀ r, call.reply = .ok r →
      r.sessionId = call.sessionId) ∧
    (ChannelLaw (max timeout 1) (ChannelRun.after timeout ops).calls c e.now session ↔
      SuppliesNoOldId (max timeout 1) (ChannelRun.after timeout ops).calls c e.now) := by
  have hsplit := List.pairwise_append.1 hclock
  have hnow : ∀ op ∈ ops, op.now ≤ e.now := fun op hmem =>
    hsplit.2.2 op hmem (.getOrCreate c e) (by simp)
  have h := consistent_after timeout ops hsplit.1
    fun op hmem => hloads op (List.mem_append_left _ hmem)
  have hself : Consistent (ops ++ [.getOrCreate c e])
      ((ChannelRun.after timeout ops).step (.getOrCreate c e)) :=
    consistent_step h hnow (hloads _ (by simp))
  have hsession : session.sessionId =
      ((ChannelRun.after timeout ops).store.resolve c e).1 :=
    hself.answered ⟨c, e.now, _, _⟩ (by simp [ChannelRun.step]) session hreply
  refine ⟨h.answered, channelLaw_iff (e := e) (fun k hchannel => ?_) (fun old hold hsame => ?_)
    fun old hold => (h.stripped old hold).1⟩
  · rw [hsession, (resolve_channel h hnow hchannel).1, timeout_after]
  · obtain ⟨op, hop, hid⟩ := h.brought old hold
    have hapart := (List.pairwise_append.1 hdrawn).2.2 op hop (.getOrCreate c e) (by simp)
    exact hapart e.uuid.val (by simp [SessionOp.drawn]) (hsame ▸ hid)

end Claim

section Sample

def sampleRequest (sessionId : Option Str) : SessionRequest where
  sessionId := sessionId
  userId := "jordan"
  source := "web"
  channelKey := some "voice"

def sampleSurroundings (now : Int) (uuid : NewId) : Surroundings Int where
  now := now
  nowTimestamp := "t"
  expiresAt := "t"
  loadedAt := "t"
  touchedAt := "t"
  uuid := uuid
  persistence := none

/-- A session that begins with the clock of its process. -/
def sampleRun : List (SessionOp Int) :=
  [.getOrCreate (sampleRequest none) (sampleSurroundings 0 ⟨"a", by decide⟩)]

/-- A call within the timeout that supplies another id is given the session of the channel. -/
theorem getOrCreate_channel_law_live :
    ChannelLaw 60 (@ChannelRun.after Int _ _ asciiText _ 60 sampleRun).calls
      (sampleRequest (some "c")) 60 ⟨"a", "jordan", "web", .idle, .system, [], "t"⟩ :=
  ((@getOrCreate_channel_law Int _ _ _ _ asciiText 60 sampleRun (sampleRequest (some "c"))
    (sampleSurroundings 60 ⟨"b", by decide⟩)
    (by simp [NondecreasingClock, sampleRun, SessionOp.now, sampleSurroundings])
    (by unfold DrawsAfresh; decide)
    (by simp [sampleRun, SessionOp.LoadsById, sampleSurroundings]) _ rfl).2).2
      fun k last hchannel _ hlast hidle => by
        obtain rfl : text "voice" = k := Option.some.inj hchannel
        obtain rfl := Option.some.inj (Eq.trans (b := lastCall _ _) rfl hlast)
        exact absurd hidle (by decide)

/-- A minute and a second later, a caller who supplies the id of the expired session is given it
again. -/
theorem expired_session_returned :
    ∃ session, (@SessionStore.getOrCreate Int _ _ asciiText
        (@ChannelRun.after Int _ _ asciiText _ 60 sampleRun).store (sampleRequest (some "a"))
        (sampleSurroundings 61 ⟨"b", by decide⟩)).1 = .ok session ∧
      ¬ChannelLaw 60 (@ChannelRun.after Int _ _ asciiText _ 60 sampleRun).calls
        (sampleRequest (some "a")) 61 session :=
  ⟨_, rfl, fun hlaw =>
    hlaw.renewed "voice" rfl (.inr ⟨_, rfl, by decide⟩) _ (List.mem_cons_self ..) rfl⟩

end Sample

end HardyAI.Core
