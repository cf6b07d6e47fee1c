import HardyAI.Foundation.Json
import HardyAI.Foundation.Threads
import HardyAI.Foundation.Trace

/-! `TurnService.route`: admission, the semaphore, the lock of the session, and the thread that
runs the router. A thread is not stopped when the call that has started it ends. -/

open Foundation Foundation.Json Foundation.Trace Foundation.Threads

namespace HardyAI.Services

abbrev Context := List (Str × Json)

section Requests

inductive PrincipalKind
  | operator | discordAdapter | test
  deriving DecidableEq

def PrincipalKind.value : PrincipalKind → Str
  | .operator => "operator"
  | .discordAdapter => "discord_adapter"
  | .test => "test"

structure RequestPrincipal where
  subject : Str
  kind : PrincipalKind
  userId : Str
  source : Str
  authenticatedBy : Str

structure AskRequest where
  text : Str
  requestId : Option Str := none
  sessionId : Option Str := none
  userId : Str := "local_user"
  source : Str := "web"
  context : Context := []

/-- `_UNTRUSTED_CONTEXT_KEYS`. -/
def untrustedContextKeys : List Str :=
  [text "agent_id", text "agent_display_name", text "age_band", text "content_profile",
    text "identity_bound", text "is_child", text "policy_profile", text "presentation_profile",
    text "principal_kind", text "principal_subject", text "skill_scopes"]

/-- `_DISCORD_CONTEXT_KEYS`. -/
def discordContextKeys : List Str :=
  [text "auto_channel_session", text "discord_channel_id", text "discord_guild_id",
    text "discord_message_id", text "discord_role_ids", text "discord_routing_lane",
    text "current_document_attachment_ids", text "document_attachment_ids",
    text "document_result_contexts", text "external_display_name", text "external_message_id",
    text "external_user_id", text "force_main_owner", text "command_prefix_explicit",
    text "request_id", text "session_channel", text "wake_on_message"]

/-- `_OPERATOR_CONTEXT_KEYS`. -/
def operatorContextKeys : List Str :=
  [text "auto_channel_session", text "channel_session_scope", text "mode", text "request_id",
    text "session_channel", text "wake_on_message"]

def selectKeys (context : Context) (keys : List Str) : Context :=
  context.filter fun p => keys.contains p.1

/-- `context[key] = value`. -/
def setKey (context : Context) (key : Str) (value : Json) : Context :=
  context.filter (fun p => p.1 ≠ key) ++ [(key, value)]

/-- The texts among the first scopes that are not blank. -/
def trustedScopes (scopes : List Json) : List Json :=
  (scopes.take 32).filterMap fun
    | .str scope => if strip scope = [] then none else some (.str (strip scope))
    | _ => none

variable [PythonText]

/-- What a principal makes of a request: the source, the user and the context. -/
def trustedParts (payload : AskRequest) (principal : RequestPrincipal) (supplied : Context) :
    Except PyError (Str × Str × Context) :=
  match principal.kind with
  | .discordAdapter => do
    let selected := selectKeys supplied discordContextKeys
    let narrowed := match lookup payload.context "skill_scopes" with
      | some (.arr scopes) => setKey selected "skill_scopes" (.arr (trustedScopes scopes))
      | _ => selected
    let externalUserId := strip (← textOr (lookup narrowed "external_user_id") payload.userId)
    .ok ("discord", if externalUserId = [] then principal.userId else externalUserId,
      setKey narrowed "external_user_id" (.str externalUserId))
  | .test => .ok (payload.source, payload.userId, supplied)
  | .operator =>
    .ok (principal.source, principal.userId, selectKeys supplied operatorContextKeys)

/-- `trusted_ask_request`. -/
def trustedAskRequest (payload : AskRequest) (principal : RequestPrincipal) :
    Except PyError AskRequest := do
  let supplied := payload.context.filter fun p => !untrustedContextKeys.contains p.1
  let (source, userId, context) ← trustedParts payload principal supplied
  let context := setKey context "principal_kind" (.str principal.kind.value)
  let context := setKey context "principal_subject" (.str principal.subject)
  let context := setKey context "principal_authenticated_by" (.str principal.authenticatedBy)
  .ok { payload with userId, source, context }

/-- The channel that a request names, empty where it names none. -/
def sessionChannel (payload : AskRequest) : Except PyError Str :=
  (textOr (lookup payload.context "session_channel") []).map fun channel =>
    PythonText.casefold (strip channel)

/-- `_session_key`. -/
def sessionKey (payload : AskRequest) : Except PyError Str :=
  let sessionId := payload.sessionId.getD []
  if sessionId ≠ [] then .ok (text "session:" ++ sessionId)
  else do
    let channel ← sessionChannel payload
    .ok (if channel ≠ [] then text "channel:" ++ payload.userId ++ text ":" ++ channel
      else text "request:" ++ payload.userId ++ text ":" ++ payload.source)

/-- Both requests name one session: by its identifier, or by the user and the channel. -/
def SameSession (a b : AskRequest) : Prop :=
  (∃ sessionId, sessionId ≠ [] ∧ a.sessionId = some sessionId ∧ b.sessionId = some sessionId) ∨
    a.userId = b.userId ∧ ∃ channel, channel ≠ [] ∧ sessionChannel a = .ok channel ∧
      sessionChannel b = .ok channel

end Requests

section Machine

/-- Where the coroutine of a call stands. -/
inductive Phase
  | arrived | queued | holding | executing | leaving | ended
  deriving DecidableEq

/-- What the pool of threads makes of `router.route`. -/
inductive Work
  | none | submitted | running | done | cancelled
  deriving DecidableEq

structure RouteCall where
  request : AskRequest
  key : Str := []
  phase : Phase := .arrived
  work : Work := .none

structure TurnSettings where
  maxConcurrency : Int
  queueCapacity : Int

/-- `self._max_concurrency`. -/
def TurnSettings.concurrency (cfg : TurnSettings) : Nat := (max 1 cfg.maxConcurrency).toNat

/-- `self._queue_capacity`. -/
def TurnSettings.capacity (cfg : TurnSettings) : Nat := (max 0 cfg.queueCapacity).toNat

/-- The calls in order of arrival, the value of the semaphore, the session locks that are held
and the number of admitted calls. -/
structure TurnState where
  calls : List RouteCall := []
  free : Nat
  locked : List Str := []
  admitted : Int := 0

def TurnState.start (cfg : TurnSettings) : TurnState := { free := cfg.concurrency }

inductive Event
  | arrive (payload : AskRequest) (principal : RequestPrincipal)
  /-- The section under the admission lock, which does not wait inside. -/
  | enter (i : Nat)
  | acquire (i : Nat)
  | lock (i : Nat)
  /-- A thread of the pool takes up the submitted work. -/
  | startWork (i : Nat)
  | finishWork (i : Nat)
  /-- The router has returned or raised, and the call goes on with that. -/
  | resume (i : Nat)
  /-- The timeout of the call, or its cancellation. -/
  | expire (i : Nat)
  | leave (i : Nat)

def TurnState.put (s : TurnState) (i : Nat) (call : RouteCall) : TurnState :=
  { s with calls := s.calls.set i call }

variable [PythonText]

def enter (cfg : TurnSettings) (s : TurnState) (i : Nat) (call : RouteCall) : TurnState :=
  if call.phase ≠ .arrived then s
  else if (cfg.concurrency + cfg.capacity : Int) ≤ s.admitted then
    s.put i { call with phase := .ended }
  else
    let s := { s with admitted := s.admitted + 1 }
    match sessionKey call.request with
    | .ok key => s.put i { call with key, phase := .queued }
    | .error _ => s.put i { call with phase := .ended }

omit [PythonText] in
/-- The exits of the two `async with` blocks. -/
def release (s : TurnState) (i : Nat) (call : RouteCall) : TurnState :=
  { s with free := s.free + 1, locked := s.locked.erase call.key }.put i
    { call with phase := .leaving }

omit [PythonText] in
/-- The end of a call by timeout or cancellation: work that runs goes on. -/
def expire (s : TurnState) (i : Nat) (call : RouteCall) : TurnState :=
  match call.phase with
  | .arrived | .leaving => s.put i { call with phase := .ended }
  | .queued => s.put i { call with phase := .leaving }
  | .holding => { s with free := s.free + 1 }.put i { call with phase := .leaving }
  | .executing => release s i
      { call with work := if call.work = .submitted then .cancelled else call.work }
  | .ended => s

/-- The events of a call. -/
def callStep (cfg : TurnSettings) (s : TurnState) (i : Nat) (call : RouteCall) :
    Event → TurnState
  | .arrive .. => s
  | .enter _ => enter cfg s i call
  | .acquire _ =>
    if call.phase = .queued ∧ 0 < s.free then
      { s with free := s.free - 1 }.put i { call with phase := .holding }
    else s
  | .lock _ =>
    if call.phase = .holding ∧ call.key ∉ s.locked then
      { s with locked := call.key :: s.locked }.put i
        { call with phase := .executing, work := .submitted }
    else s
  | .startWork _ =>
    if call.work = .submitted then s.put i { call with work := .running } else s
  | .finishWork _ => if call.work = .running then s.put i { call with work := .done } else s
  | .resume _ => if call.phase = .executing ∧ call.work = .done then release s i call else s
  | .expire _ => expire s i call
  | .leave _ =>
    if call.phase = .leaving then
      { s with admitted := max 0 (s.admitted - 1) }.put i { call with phase := .ended }
    else s

def Event.index : Event → Nat
  | .arrive .. => 0
  | .enter i | .acquire i | .lock i | .startWork i | .finishWork i | .resume i | .expire i
  | .leave i => i

def step (cfg : TurnSettings) (s : TurnState) : Event → TurnState
  | .arrive payload principal =>
    match trustedAskRequest payload principal with
    | .ok request => { s with calls := s.calls ++ [{ request }] }
    | .error _ => s
  | e =>
    match s.calls[e.index]? with
    | some call => callStep cfg s e.index call e
    | none => s

end Machine

section Guarantee

/-- The calls whose execution of the router is running, ended calls included. -/
def Running (s : TurnState) (i : Nat) (call : RouteCall) : Prop :=
  s.calls[i]? = some call ∧ call.work = .running

def runningWeight (call : RouteCall) : Nat := if call.work = .running then 1 else 0

variable [PythonText]

/-- At most `max_concurrency` executions are running, and at most one of any session. -/
structure Serialized (cfg : TurnSettings) (s : TurnState) : Prop where
  bounded : total runningWeight s.calls ≤ cfg.concurrency
  apart : ∀ i j a b, i ≠ j → Running s i a → Running s j b → ¬SameSession a.request b.request

/-- No call ends while its execution is running, and the requests in flight that name one session
have one key. -/
def Sound (s : TurnState) : Event → Prop
  | .expire i => ∀ call, ¬Running s i call
  | .arrive payload principal => ∀ request, trustedAskRequest payload principal = .ok request →
      ∀ call ∈ s.calls, call.phase ≠ .ended → SameSession call.request request →
        sessionKey call.request = sessionKey request
  | _ => True

omit [PythonText] in
/-- The call holds a slot of the semaphore. -/
def RouteCall.holds (call : RouteCall) : Nat :=
  if call.phase = .holding ∨ call.phase = .executing then 1 else 0

/-- What a call in the state has to satisfy by itself. -/
structure RouteCall.Lawful (call : RouteCall) : Prop where
  working : call.work = .running ∨ call.work = .submitted → call.phase = .executing
  keyed : call.phase ≠ .arrived → call.phase ≠ .ended → sessionKey call.request = .ok call.key

/-- The semaphore counts the calls that hold it, and the session locks are apart. -/
structure Guarded (cfg : TurnSettings) (s : TurnState) : Prop where
  slots : s.free + total RouteCall.holds s.calls = cfg.concurrency
  lawful : ∀ call ∈ s.calls, call.Lawful
  locks : ∀ (i : Nat) (call : RouteCall), s.calls[i]? = some call → call.phase = .executing →
    call.key ∈ s.locked
  exclusive : ∀ (i j : Nat) (a b : RouteCall), i ≠ j → s.calls[i]? = some a →
    s.calls[j]? = some b → a.phase = .executing → b.phase = .executing → a.key ≠ b.key
  coherent : ∀ a ∈ s.calls, ∀ b ∈ s.calls, a.phase ≠ .ended → b.phase ≠ .ended →
    SameSession a.request b.request → sessionKey a.request = sessionKey b.request

variable {cfg : TurnSettings} {s : TurnState}

theorem start_guarded (cfg : TurnSettings) : Guarded cfg (.start cfg) where
  slots := rfl
  lawful call hcall := by simp [TurnState.start] at hcall
  locks i call hcall := by simp [TurnState.start] at hcall
  exclusive i j a b hne ha := by simp [TurnState.start] at ha
  coherent a ha := by simp [TurnState.start] at ha

theorem Guarded.serialized (h : Guarded cfg s) : Serialized cfg s where
  bounded := by
    have hle : total runningWeight s.calls ≤ total RouteCall.holds s.calls := by
      refine total_le_total fun call hcall => ?_
      unfold runningWeight RouteCall.holds
      split
      · next hrunning => simp [(h.lawful call hcall).working (.inl hrunning)]
      · exact Nat.zero_le _
    have hslots := h.slots
    omega
  apart i j a b hne ha hb hsame := by
    have hma := List.mem_of_getElem? ha.1
    have hmb := List.mem_of_getElem? hb.1
    have hea := (h.lawful a hma).working (.inl ha.2)
    have heb := (h.lawful b hmb).working (.inl hb.2)
    have hkeys := h.coherent a hma b hmb (by simp [hea]) (by simp [heb]) hsame
    rw [(h.lawful a hma).keyed (by simp [hea]) (by simp [hea]),
      (h.lawful b hmb).keyed (by simp [heb]) (by simp [heb])] at hkeys
    exact h.exclusive i j a b hne ha.1 hb.1 hea heb (Except.ok.inj hkeys)

/-- What an event of a call may do to the call and to the shared state. -/
structure Moves (s s' : TurnState) (i : Nat) (old new : RouteCall) : Prop where
  calls : s'.calls = s.calls.set i new
  slots : s'.free + new.holds = s.free + old.holds
  lawful : new.Lawful
  kept : ∀ key ∈ s.locked, key ≠ old.key ∨ old.phase ≠ .executing → key ∈ s'.locked
  locks : new.phase = .executing → new.key ∈ s'.locked
  fresh : new.phase = .executing → old.phase = .executing ∧ new.key = old.key ∨
    new.key ∉ s.locked
  request : new.request = old.request
  ended : new.phase ≠ .ended → old.phase ≠ .ended

theorem Guarded.move (h : Guarded cfg s) {s' : TurnState} {i : Nat} {old new : RouteCall}
    (hold : s.calls[i]? = some old) (hmoves : Moves s s' i old new) : Guarded cfg s' := by
  have hcase (j : Nat) (call : RouteCall) (hcall : s'.calls[j]? = some call) :
      j = i ∧ call = new ∨ j ≠ i ∧ s.calls[j]? = some call := by
    rw [hmoves.calls, List.getElem?_set] at hcall
    split_ifs at hcall with hji hlt
    · exact .inl ⟨hji.symm, (Option.some.inj hcall).symm⟩
    · exact .inr ⟨Ne.symm hji, hcall⟩
  have hmem (call : RouteCall) (hcall : call ∈ s'.calls) : ∃ before ∈ s.calls,
      call.request = before.request ∧ (call.phase ≠ .ended → before.phase ≠ .ended) := by
    rw [hmoves.calls] at hcall
    rcases List.mem_or_eq_of_mem_set hcall with hcall | rfl
    · exact ⟨call, hcall, rfl, id⟩
    · exact ⟨old, List.mem_of_getElem? hold, hmoves.request, hmoves.ended⟩
  refine ⟨?_, ?_, ?_, ?_, ?_⟩
  · have htotal := total_set RouteCall.holds hold new
    rw [hmoves.calls]
    have hslots := h.slots
    have hmoved := hmoves.slots
    omega
  · intro call hcall
    rw [hmoves.calls] at hcall
    rcases List.mem_or_eq_of_mem_set hcall with hcall | rfl
    · exact h.lawful call hcall
    · exact hmoves.lawful
  · intro j call hcall hexecuting
    rcases hcase j call hcall with ⟨-, rfl⟩ | ⟨hne, hcall⟩
    · exact hmoves.locks hexecuting
    · refine hmoves.kept _ (h.locks j call hcall hexecuting) ?_
      by_cases hwas : old.phase = .executing
      · exact .inl (h.exclusive j i call old hne hcall hold hexecuting hwas)
      · exact .inr hwas
  · intro j k a b hne ha hb hea heb
    have hfresh (j : Nat) (a : RouteCall) (hj : j ≠ i) (ha : s.calls[j]? = some a)
        (hea : a.phase = .executing) (hnew : new.phase = .executing) : a.key ≠ new.key := by
      rcases hmoves.fresh hnew with ⟨hwas, hkey⟩ | hfree
      · rw [hkey]
        exact h.exclusive j i a old hj ha hold hea hwas
      · exact fun heq => hfree (heq ▸ h.locks j a ha hea)
    rcases hcase j a ha with ⟨rfl, rfl⟩ | ⟨hj, ha⟩
    · rcases hcase k b hb with ⟨rfl, -⟩ | ⟨hk, hb⟩
      · exact absurd rfl hne
      · exact (hfresh k b hk hb heb hea).symm
    · rcases hcase k b hb with ⟨rfl, rfl⟩ | ⟨hk, hb⟩
      · exact hfresh j a hj ha hea heb
      · exact h.exclusive j k a b hne ha hb hea heb
  · intro a ha b hb hea heb hsame
    obtain ⟨a', ha', hreqa, henda⟩ := hmem a ha
    obtain ⟨b', hb', hreqb, hendb⟩ := hmem b hb
    rw [hreqa, hreqb] at hsame ⊢
    exact h.coherent a' ha' b' hb' (henda hea) (hendb heb) hsame

/-- A call that holds no session lock moves to a phase in which it holds none. -/
theorem Moves.aside {i : Nat} {old new : RouteCall} {s' : TurnState}
    (hcalls : s'.calls = s.calls.set i new) (hlocked : s'.locked = s.locked)
    (hslots : s'.free + new.holds = s.free + old.holds) (hlawful : new.Lawful)
    (hphase : new.phase ≠ .executing) (hrequest : new.request = old.request)
    (hended : new.phase ≠ .ended → old.phase ≠ .ended) : Moves s s' i old new where
  calls := hcalls
  slots := hslots
  lawful := hlawful
  kept _ hheld _ := hlocked ▸ hheld
  locks hexecuting := absurd hexecuting hphase
  fresh hexecuting := absurd hexecuting hphase
  request := hrequest
  ended := hended

/-- The work of a call goes on while the call stays where it is. -/
theorem Moves.work {i : Nat} {old new : RouteCall} {s' : TurnState}
    (hcalls : s'.calls = s.calls.set i new) (hlocked : s'.locked = s.locked)
    (hfree : s'.free = s.free) (hlawful : new.Lawful) (hphase : new.phase = old.phase)
    (hkey : new.key = old.key) (hrequest : new.request = old.request)
    (hlock : old.phase = .executing → old.key ∈ s.locked) : Moves s s' i old new where
  calls := hcalls
  slots := by rw [hfree, RouteCall.holds, RouteCall.holds, hphase]
  lawful := hlawful
  kept _ hheld _ := hlocked ▸ hheld
  locks hexecuting := by
    rw [hlocked, hkey]
    exact hlock (hphase ▸ hexecuting)
  fresh hexecuting := .inl ⟨hphase ▸ hexecuting, hkey⟩
  request := hrequest
  ended hended := hphase ▸ hended

variable {i : Nat} {call : RouteCall}

theorem enter_guarded (h : Guarded cfg s) (hcall : s.calls[i]? = some call) :
    Guarded cfg (enter cfg s i call) := by
  have hlawful := h.lawful call (List.mem_of_getElem? hcall)
  unfold enter
  split
  · exact h
  · next harrived =>
    replace harrived := not_not.1 harrived
    have hidle (hwork : call.work = .running ∨ call.work = .submitted) : False := by
      have hexecuting := hlawful.working hwork
      simp [harrived] at hexecuting
    split
    · refine h.move hcall (.aside rfl rfl ?_ ⟨fun hwork => (hidle hwork).elim, ?_⟩ nofun rfl ?_)
      · simp [TurnState.put, RouteCall.holds, harrived]
      · simp
      · simp
    · cases hkey : sessionKey call.request with
      | ok key =>
        refine h.move hcall (.aside rfl rfl ?_ ⟨fun hwork => (hidle hwork).elim, ?_⟩ nofun rfl ?_)
        · simp [TurnState.put, RouteCall.holds, harrived]
        · exact fun _ _ => hkey
        · simp [harrived]
      | error e =>
        refine h.move hcall (.aside rfl rfl ?_ ⟨fun hwork => (hidle hwork).elim, ?_⟩ nofun rfl ?_)
        · simp [TurnState.put, RouteCall.holds, harrived]
        · simp
        · simp

/-- The exit of a call gives its slot and its lock back. -/
theorem release_guarded (h : Guarded cfg s) (hcall : s.calls[i]? = some call)
    (hphase : call.phase = .executing) {work : Work}
    (hwork : work ≠ .running ∧ work ≠ .submitted) :
    Guarded cfg (release s i { call with work }) := by
  have hlawful := h.lawful call (List.mem_of_getElem? hcall)
  refine h.move hcall ⟨rfl, ?_, ⟨?_, ?_⟩, ?_, nofun, nofun, rfl, ?_⟩
  · simp [release, TurnState.put, RouteCall.holds, hphase]
  · rintro (hrunning | hsubmitted)
    · exact absurd hrunning hwork.1
    · exact absurd hsubmitted hwork.2
  · exact fun _ _ => hlawful.keyed (by simp [hphase]) (by simp [hphase])
  · intro key hkey hne
    exact (List.mem_erase_of_ne (hne.resolve_right (by simp [hphase]))).2 hkey
  · simp [hphase]

theorem expire_guarded (h : Guarded cfg s) (hcall : s.calls[i]? = some call)
    (hrunning : call.work ≠ .running) : Guarded cfg (expire s i call) := by
  have hlawful := h.lawful call (List.mem_of_getElem? hcall)
  have hidle (hphase : call.phase ≠ .executing)
      (hwork : call.work = .running ∨ call.work = .submitted) : False :=
    hphase (hlawful.working hwork)
  unfold expire
  cases hphase : call.phase with
  | arrived | leaving =>
    refine h.move hcall (.aside rfl rfl ?_ ⟨fun hwork => ?_, ?_⟩ nofun rfl ?_)
    · simp [TurnState.put, RouteCall.holds, hphase]
    · exact (hidle (by simp [hphase]) hwork).elim
    · simp
    · simp
  | queued | holding =>
    refine h.move hcall (.aside rfl rfl ?_ ⟨fun hwork => ?_, ?_⟩ nofun rfl ?_)
    · simp [TurnState.put, RouteCall.holds, hphase]
    · exact (hidle (by simp [hphase]) hwork).elim
    · exact fun _ _ => hlawful.keyed (by simp [hphase]) (by simp [hphase])
    · simp [hphase]
  | executing =>
    refine release_guarded h hcall hphase ?_
    split
    · exact ⟨nofun, nofun⟩
    · next hsubmitted => exact ⟨hrunning, hsubmitted⟩
  | ended => exact h

theorem lock_guarded (h : Guarded cfg s) (hcall : s.calls[i]? = some call)
    (hphase : call.phase = .holding) (hfree : call.key ∉ s.locked) :
    Guarded cfg ({ s with locked := call.key :: s.locked }.put i
      { call with phase := .executing, work := .submitted }) := by
  have hlawful := h.lawful call (List.mem_of_getElem? hcall)
  refine h.move hcall ⟨rfl, ?_, ⟨fun _ => rfl, ?_⟩, ?_, fun _ => List.mem_cons_self,
    fun _ => .inr hfree, rfl, ?_⟩
  · simp [TurnState.put, RouteCall.holds, hphase]
  · exact fun _ _ => hlawful.keyed (by simp [hphase]) (by simp [hphase])
  · exact fun key hkey _ => List.mem_cons_of_mem _ hkey
  · simp [hphase]

theorem callStep_guarded (h : Guarded cfg s) {e : Event} (he : e.index = i)
    (hcall : s.calls[i]? = some call) (hsound : Sound s e) :
    Guarded cfg (callStep cfg s i call e) := by
  have hlawful := h.lawful call (List.mem_of_getElem? hcall)
  cases e with
  | arrive => exact h
  | enter => exact enter_guarded h hcall
  | acquire =>
    simp only [callStep]
    split
    · next hboth =>
      have hfree := hboth.2
      refine h.move hcall (.aside rfl rfl ?_ ⟨fun hwork => ?_, ?_⟩ nofun rfl ?_)
      · simp only [TurnState.put, RouteCall.holds, hboth.1]
        simp
        omega
      · have hexecuting := hlawful.working hwork
        simp [hboth.1] at hexecuting
      · exact fun _ _ => hlawful.keyed (by simp [hboth.1]) (by simp [hboth.1])
      · simp [hboth.1]
    · exact h
  | lock =>
    simp only [callStep]
    split
    · next hboth => exact lock_guarded h hcall hboth.1 hboth.2
    · exact h
  | startWork =>
    simp only [callStep]
    split
    · next hsubmitted =>
      refine h.move hcall (.work rfl rfl rfl ⟨fun _ => ?_, hlawful.keyed⟩ rfl rfl rfl
        (h.locks i call hcall))
      exact hlawful.working (.inr hsubmitted)
    · exact h
  | finishWork =>
    simp only [callStep]
    split
    · next hrunning =>
      refine h.move hcall (.work rfl rfl rfl ⟨?_, hlawful.keyed⟩ rfl rfl rfl
        (h.locks i call hcall))
      rintro (hwork | hwork) <;> cases hwork
    · exact h
  | resume =>
    simp only [callStep]
    split
    · next hboth =>
      have hreleased : Guarded cfg (release s i { call with work := .done }) :=
        release_guarded h hcall hboth.1 ⟨nofun, nofun⟩
      rwa [← hboth.2] at hreleased
    · exact h
  | expire j =>
    refine expire_guarded h hcall fun hrunning => hsound call ⟨?_, hrunning⟩
    exact (show j = i from he) ▸ hcall
  | leave =>
    simp only [callStep]
    split
    · next hphase =>
      refine h.move hcall (.aside rfl rfl ?_ ⟨fun hwork => ?_, ?_⟩ nofun rfl ?_)
      · simp [TurnState.put, RouteCall.holds, hphase]
      · have hexecuting := hlawful.working hwork
        simp [hphase] at hexecuting
      · simp
      · simp
    · exact h

theorem SameSession.symm {a b : AskRequest} (h : SameSession a b) : SameSession b a := by
  rcases h with ⟨sessionId, hne, ha, hb⟩ | ⟨huser, channel, hne, ha, hb⟩
  · exact .inl ⟨sessionId, hne, hb, ha⟩
  · exact .inr ⟨huser.symm, channel, hne, hb, ha⟩

theorem arrive_guarded (h : Guarded cfg s) {request : AskRequest}
    (hsame : ∀ call ∈ s.calls, call.phase ≠ .ended → SameSession call.request request →
      sessionKey call.request = sessionKey request) :
    Guarded cfg { s with calls := s.calls ++ [({ request } : RouteCall)] } := by
  have hcase (j : Nat) (call : RouteCall)
      (hcall : (s.calls ++ [({ request } : RouteCall)])[j]? = some call) (hphase : call.phase = .executing) :
      s.calls[j]? = some call := by
    rcases lt_trichotomy j s.calls.length with hlt | rfl | hlt
    · rwa [List.getElem?_append_left hlt] at hcall
    · simp only [List.getElem?_concat_length, Option.some.injEq] at hcall
      rw [← hcall] at hphase
      cases hphase
    · rw [List.getElem?_append_right hlt.le, List.getElem?_eq_none (by simp; omega)] at hcall
      cases hcall
  refine ⟨?_, ?_, ?_, ?_, ?_⟩
  · simpa [total_concat, RouteCall.holds] using h.slots
  · intro call hcall
    rcases List.mem_append.1 hcall with hcall | hcall
    · exact h.lawful call hcall
    · obtain rfl := List.mem_singleton.1 hcall
      exact ⟨by simp, by simp⟩
  · exact fun j call hcall hphase => h.locks j call (hcase j call hcall hphase) hphase
  · intro j k a b hne ha hb hea heb
    exact h.exclusive j k a b hne (hcase j a ha hea) (hcase k b hb heb) hea heb
  · intro a ha b hb hea heb hab
    rcases List.mem_append.1 ha with ha | ha <;> rcases List.mem_append.1 hb with hb | hb
    · exact h.coherent a ha b hb hea heb hab
    · obtain rfl := List.mem_singleton.1 hb
      exact hsame a ha hea hab
    · obtain rfl := List.mem_singleton.1 ha
      exact (hsame b hb heb hab.symm).symm
    · obtain rfl := List.mem_singleton.1 ha
      obtain rfl := List.mem_singleton.1 hb
      rfl

theorem step_guarded (h : Guarded cfg s) (e : Event) (hsound : Sound s e) :
    Guarded cfg (step cfg s e) := by
  have hother (hnot : ∀ payload principal, e ≠ .arrive payload principal) :
      Guarded cfg (match s.calls[e.index]? with
        | some call => callStep cfg s e.index call e
        | none => s) := by
    split
    · next hcall => exact callStep_guarded h rfl hcall hsound
    · exact h
  cases e with
  | arrive payload principal =>
    simp only [step]
    split
    · next request hrequest => exact arrive_guarded h (hsound request hrequest)
    · exact h
  | _ => exact hother nofun

end Guarantee

section Samples

def samplePrincipal : RequestPrincipal where
  subject := text "test"
  kind := .test
  userId := text "test-user"
  source := text "test"
  authenticatedBy := text "test"

def samplePayload : AskRequest := { text := text "hello", sessionId := some (text "one") }

def sampleSettings : TurnSettings := ⟨1, 8⟩

/-- The call `i` arrives and comes to run the router. -/
def sampleExecution (i : Nat) : List Event :=
  [.arrive samplePayload samplePrincipal, .enter i, .acquire i, .lock i, .startWork i]

/-- The state after a second turn of the session, while the thread of the first, which has timed
out, still runs. -/
def sampleOverrun : TurnState :=
  run (@step asciiText sampleSettings) (.start sampleSettings)
    (sampleExecution 0 ++ .expire 0 :: sampleExecution 1)

end Samples

end HardyAI.Services
