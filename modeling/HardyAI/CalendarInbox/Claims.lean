import HardyAI.CalendarInbox.Service

/-! What a call of `run_due` knows of the claims it makes, and that it works under them. -/

open Foundation Foundation.Json Foundation.Program

namespace HardyAI.CalendarInbox

section Holdings

@[grind =]
def trackRun : Option (Holding Str Str) → Sigma Op.Reply → Option (Holding Str Str)
  | _, ⟨.claimRun _ now _, .ok (.granted runId attempt)⟩ => some ⟨runId, attempt, now⟩
  | _, ⟨.finishRun .., .ok ()⟩ => none
  | _, ⟨.markRunFailed .., .ok ()⟩ => none
  | x, _ => x

@[grind =]
def trackMessage : Option (Holding Str Str) → Sigma Op.Reply → Option (Holding Str Str)
  | _, ⟨.claimMessage ref _ now _, .ok (.granted attempt)⟩ => some ⟨ref.messageId, attempt, now⟩
  | _, ⟨.finishMessage .., .ok ()⟩ => none
  | _, ⟨.markMessageFailed .., .ok ()⟩ => none
  | x, _ => x

/-- The run that a call has claimed and neither finished nor failed since. -/
def heldRun (h : History Op.Reply) : Option (Holding Str Str) := h.foldl trackRun none

/-- The message that a call has claimed and neither finished nor failed since. -/
def heldMessage (h : History Op.Reply) : Option (Holding Str Str) := h.foldl trackMessage none

variable {h : History Op.Reply} {x : Sigma Op.Reply}

@[simp] theorem heldRun_concat : heldRun (h ++ [x]) = trackRun (heldRun h) x := by
  rw [heldRun, List.foldl_append]
  rfl

@[simp] theorem heldMessage_concat : heldMessage (h ++ [x]) = trackMessage (heldMessage h) x := by
  rw [heldMessage, List.foldl_append]
  rfl

def HoldsKey (held : Option (Holding Str Str)) (k : Str) : Prop := ∃ x, held = some x ∧ x.key = k

/-- The completion of a run could not be recorded in the event log. -/
def Unrecorded (h : History Op.Reply) : Prop :=
  ∃ result e, (⟨.record (.runCompleted result), .error e⟩ : Sigma Op.Reply) ∈ h

theorem Unrecorded.append {h' : History Op.Reply} (hu : Unrecorded h) : Unrecorded (h ++ h') := by
  obtain ⟨result, e, hmem⟩ := hu
  exact ⟨result, e, List.mem_append_left _ hmem⟩

/-- What a call does to a message or a run, it does under a claim of its own, but for the failure
of a run whose completion could not be recorded. -/
def Allowed (h : History Op.Reply) : Op → Prop
  | .reconcileMessage id | .finishMessage id .. | .markMessageFailed id .. =>
    HoldsKey (heldMessage h) id
  | .finishRun runId .. => HoldsKey (heldRun h) runId
  | .markRunFailed runId .. => HoldsKey (heldRun h) runId ∨ Unrecorded h
  | .claimRun .. | .runAttempts _ | .claimMessage .. | .messageAttempts _ | .recordEvent _
  | .openSession _ | .listCandidateMessages | .record _ => True

end Holdings

section Conforming

variable {h : History Op.Reply} {runId slot now stale id : Str} {c : Config}
  {session : InboxSession} {counts : RunCounts}

theorem conforms_ask {op : Op} {post : History Op.Reply → Except PyError op.Answer → Prop} :
    Conforms Allowed post h (ask op) ↔
      Allowed h op ∧ ∀ r : op.Reply, post (h ++ [⟨op, r⟩]) r := by
  rw [ask, conforms_raising, conforms_perform]

/-- Recording an event does not touch the claims of the call. -/
theorem conforms_record (event : LogEvent) :
    Conforms Allowed (fun h' r => heldRun h' = heldRun h ∧ heldMessage h' = heldMessage h ∧
      ∀ result e, event = .runCompleted result → r = .error e → Unrecorded h') h
      (record c event) := by
  unfold record
  split
  · refine conforms_ask.2 ⟨trivial, fun r => ⟨?_, ?_, ?_⟩⟩
    · cases r <;> simp [trackRun]
    · cases r <;> simp [trackMessage]
    · rintro result e rfl rfl
      exact ⟨result, e, by simp⟩
  · exact ⟨rfl, rfl, nofun⟩

theorem conforms_recordEvents (events : List ReconciledEvent) :
    Conforms Allowed (fun h' r => heldRun h' = heldRun h ∧ heldMessage h' = heldMessage h ∧
      ∀ e, r ≠ .error e) h (recordEvents session id now events counts) := by
  induction events generalizing h counts with
  | nil => exact ⟨rfl, rfl, nofun⟩
  | cons event events ih =>
    refine ⟨trivial, fun r => ?_⟩
    have hrun : heldRun (h ++ [⟨.recordEvent (eventRow session id now event), r⟩]) = heldRun h := by
      cases r <;> simp [trackRun]
    have hmessage : heldMessage (h ++ [⟨.recordEvent (eventRow session id now event), r⟩]) =
        heldMessage h := by
      cases r <;> simp [trackMessage]
    cases r with
    | error e => exact ⟨hrun, hmessage, nofun⟩
    | ok u =>
      refine ih.mono fun h' r' _ hpost => ?_
      exact ⟨hpost.1.trans hrun, hpost.2.1.trans hmessage, hpost.2.2⟩

theorem conforms_failMessage {error : Str} (hheld : HoldsKey (heldMessage h) id) :
    Conforms Allowed (fun h' _ => heldRun h' = heldRun h) h (failMessage id error now) := by
  have hread : Conforms Allowed (fun h' _ => heldRun h' = heldRun h ∧
      heldMessage h' = heldMessage h) h (ask (.messageAttempts id)) := by
    refine conforms_ask.2 ⟨trivial, fun r => ⟨?_, ?_⟩⟩
    · cases r <;> simp [trackRun]
    · cases r <;> simp [trackMessage]
  refine hread.bind (fun h₁ attempts _ hpost => ?_) fun h₁ e _ hpost => hpost.1
  have hwrite : ∀ status, Conforms Allowed (fun h' _ => heldRun h' = heldRun h) h₁
      (ask (.markMessageFailed id status error now)) := by
    refine fun status => conforms_ask.2 ⟨?_, fun r => ?_⟩
    · rw [Allowed, hpost.2]
      exact hheld
    · cases r <;> simp [trackRun, hpost.1]
  exact (hwrite _).bind (fun h₂ u _ hrun => hrun) fun h₂ e _ hrun => hrun

variable [PythonText]

/-- The message stays claimed where its reconciliation has raised. -/
theorem conforms_reconcile (hheld : HoldsKey (heldMessage h) id) :
    Conforms Allowed (fun h' r => heldRun h' = heldRun h ∧
      (∀ counts' e, r = .ok (counts', some e) → HoldsKey (heldMessage h') id) ∧ ∀ e, r ≠ .error e) h
      (reconcile session id now counts) := by
  refine ⟨hheld, fun r => ?_⟩
  have hrun : heldRun (h ++ [⟨.reconcileMessage id, r⟩]) = heldRun h := by
    cases r <;> simp [trackRun]
  have hmessage : heldMessage (h ++ [⟨.reconcileMessage id, r⟩]) = heldMessage h := by
    cases r <;> simp [trackMessage]
  cases r with
  | error e => exact ⟨hrun, fun _ _ _ => hmessage ▸ hheld, nofun⟩
  | ok outcome =>
    refine Conforms.bind (conforms_recordEvents outcome.events) (fun h₁ p _ hpost => ?_)
      fun h₁ e _ hpost => absurd rfl (hpost.2.2 e)
    obtain ⟨counts', raised⟩ := p
    have hrun₁ : heldRun h₁ = heldRun h := hpost.1.trans hrun
    have hheld₁ : HoldsKey (heldMessage h₁) id := by
      rw [hpost.2.1, hmessage]
      exact hheld
    cases raised with
    | some e => exact ⟨hrun₁, fun _ _ _ => hheld₁, nofun⟩
    | none =>
      refine ⟨hheld₁, fun r => ?_⟩
      cases r with
      | error e =>
        refine ⟨?_, fun _ _ _ => ?_, nofun⟩
        · simpa [trackRun] using hrun₁
        · simpa [trackMessage] using hheld₁
      | ok u =>
        refine ⟨?_, fun counts' e hr => ?_, nofun⟩
        · simpa [trackRun] using hrun₁
        · cases hr

theorem conforms_processMessage {ref : InboxMessageRef} :
    Conforms Allowed (fun h' _ => heldRun h' = heldRun h) h
      (processMessage c session runId now stale ref counts) := by
  have hclaim : Conforms Allowed (fun h' r => heldRun h' = heldRun h ∧
      ∀ attempt, r = .ok (.granted attempt) → HoldsKey (heldMessage h') ref.messageId) h
      (ask (.claimMessage ref runId now stale)) := by
    refine conforms_ask.2 ⟨trivial, fun r => ⟨?_, ?_⟩⟩
    · cases r <;> simp [trackRun]
    · rintro attempt rfl
      simp [trackMessage, HoldsKey]
  refine hclaim.bind (fun h₁ claim _ hpost => ?_) fun h₁ e _ hpost => hpost.1
  cases claim with
  | refused reason => exact hpost.1
  | granted attempt =>
    refine (conforms_reconcile (hpost.2 attempt rfl)).bind (fun h₂ p _ hreconciled => ?_)
      fun h₂ e _ hreconciled => absurd rfl (hreconciled.2.2 e)
    obtain ⟨counts', raised⟩ := p
    have hrun₂ : heldRun h₂ = heldRun h := hreconciled.1.trans hpost.1
    cases raised with
    | none => exact hrun₂
    | some e =>
      have hfailure : Conforms Allowed (fun h' _ => heldRun h' = heldRun h) h₂
          (afterFailure c ref.messageId runId now e) := by
        refine (conforms_failMessage (hreconciled.2.1 counts' e rfl)).bind
          (fun h₃ p _ hrun₃ => ?_) fun h₃ e' _ hrun₃ => hrun₃.trans hrun₂
        refine (conforms_record _).mono fun h₄ r _ hrun₄ => ?_
        exact hrun₄.1.trans (hrun₃.trans hrun₂)
      exact hfailure.bind (fun h₃ u _ hrun₃ => hrun₃) fun h₃ e' _ hrun₃ => hrun₃

theorem conforms_processMessages (refs : List InboxMessageRef) :
    Conforms Allowed (fun h' _ => heldRun h' = heldRun h) h
      (processMessages c session runId now stale refs counts) := by
  induction refs generalizing h counts with
  | nil => exact rfl
  | cons ref refs ih =>
    refine Conforms.bind conforms_processMessage (fun h₁ counts' _ hrun => ?_)
      fun h₁ e _ hrun => hrun
    exact ih.mono fun h₂ r _ hrun₂ => hrun₂.trans hrun

/-- A scan that raises leaves its run claimed, or has failed to record that it is completed. -/
theorem conforms_scan (hheld : HoldsKey (heldRun h) runId) :
    Conforms Allowed (fun h' r => ∀ e, r = .error e → HoldsKey (heldRun h') runId ∨ Unrecorded h') h
      (scan c runId slot now stale) := by
  have hkeeps : ∀ {h' : History Op.Reply}, heldRun h' = heldRun h → HoldsKey (heldRun h') runId :=
    fun hrun => hrun ▸ hheld
  have hopen : Conforms Allowed (fun h' _ => heldRun h' = heldRun h) h
      (ask (.openSession (sessionRequest c))) :=
    conforms_ask.2 ⟨trivial, fun r => by cases r <;> simp [trackRun]⟩
  refine hopen.bind (fun h₁ session _ hrun₁ => ?_) fun h₁ e _ hrun₁ _ _ => .inl (hkeeps hrun₁)
  have hlist : Conforms Allowed (fun h' _ => heldRun h' = heldRun h) h₁
      (ask .listCandidateMessages) :=
    conforms_ask.2 ⟨trivial, fun r => by cases r <;> simp [trackRun, hrun₁]⟩
  refine hlist.bind (fun h₂ candidates _ hrun₂ => ?_) fun h₂ e _ hrun₂ _ _ => .inl (hkeeps hrun₂)
  refine (conforms_processMessages _).bind (fun h₃ counts _ hrun₃ => ?_)
    fun h₃ e _ hrun₃ _ _ => .inl (hkeeps (hrun₃.trans hrun₂))
  have hfinish : ∀ result, Conforms Allowed
      (fun h' r => ∀ e, r = .error e → heldRun h' = heldRun h) h₃
      (ask (.finishRun runId result now)) := by
    refine fun result => conforms_ask.2 ⟨hkeeps (hrun₃.trans hrun₂), ?_⟩
    rintro r e rfl
    simp [trackRun, hrun₃.trans hrun₂]
  refine (hfinish _).bind (fun h₄ u _ _ => ?_) fun h₄ e _ hrun₄ _ _ => .inl (hkeeps (hrun₄ e rfl))
  refine (conforms_record _).bind (fun h₅ u _ _ => ?_) fun h₅ e _ hrecord _ _ => ?_
  · exact nofun
  · exact .inr (hrecord.2.2 _ e rfl rfl)

omit [PythonText] in
theorem conforms_failed {e : PyError} (hheld : HoldsKey (heldRun h) runId ∨ Unrecorded h) :
    Safe Allowed h (failed c runId slot now e) := by
  have hread : Conforms Allowed (fun h' _ => HoldsKey (heldRun h') runId ∨ Unrecorded h') h
      (ask (.runAttempts runId)) := by
    refine conforms_ask.2 ⟨trivial, fun r => hheld.imp (fun hrun => ?_) Unrecorded.append⟩
    cases r <;> simpa [trackRun] using hrun
  have hfail : Conforms Allowed (fun _ _ => True) h (failRun runId (errorText e) now) := by
    refine hread.bind (fun h₁ attempts _ hheld₁ => ?_) fun _ _ _ _ => trivial
    refine Safe.bind ?_ fun _ _ _ => trivial
    exact conforms_ask.2 ⟨hheld₁, fun _ => trivial⟩
  refine Safe.bind hfail fun h₁ p _ => ?_
  exact Safe.bind (conforms_record _).safe fun _ _ _ => trivial

/-- A call of `run_due` works under its own claims, from its start to its end. -/
theorem safe_runDue (c : Config) (now : Instant) : Safe Allowed [] (runDue c now) := by
  unfold runDue
  refine Safe.ite safe_pure (Safe.bind safe_ofExcept fun h₁ stale _ => ?_)
  have hclaim : Conforms Allowed
      (fun h' r => ∀ runId attempt, r = .ok (.granted runId attempt) → HoldsKey (heldRun h') runId)
      h₁ (ask (.claimRun (slotKey c now) (isoUtc now) (isoUtc stale))) := by
    refine conforms_ask.2 ⟨trivial, ?_⟩
    rintro r runId attempt rfl
    simp [trackRun, HoldsKey]
  refine hclaim.bind (fun h₂ claim _ hheld => ?_) fun _ _ _ _ => trivial
  cases claim with
  | refused runId reason => trivial
  | granted runId attempt =>
    refine (conforms_record _).bind (fun h₃ u _ hrun₃ => ?_) fun _ _ _ _ => trivial
    have hheld₃ : HoldsKey (heldRun h₃) runId := hrun₃.1 ▸ hheld runId attempt rfl
    refine Safe.bind ?_ fun _ _ _ => trivial
    refine (conforms_scan hheld₃).handle (fun _ _ _ _ => trivial) fun h₄ e _ hfailure => ?_
    exact conforms_failed (hfailure e rfl)

end Conforming

end HardyAI.CalendarInbox
