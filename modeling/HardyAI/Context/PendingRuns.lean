import HardyAI.Context.Pending

/-! The pending interactions of a session over whole runs: what a run of calls answers is what a
cell answers that holds one interaction and falls back to another one. -/

open Foundation Foundation.Json HardyAI.Tasks HardyAI.Skills

namespace HardyAI.Context

/-- An interaction, and the one that takes its place when it is dropped. -/
structure Cell where
  pending : Option PendingInteraction
  spare : Option PendingInteraction

def Cell.drop (c : Cell) : Cell := { c with pending := c.spare }

theorem Cell.drop_of_none {c : Cell} (hnone : c.pending = none) (hspare : c.spare = none) :
    c.drop = c := by
  cases c
  cases hnone
  cases hspare
  rfl

def Cell.put (c : Cell) (p : PendingInteraction) : Cell := { c with pending := some p }

section Cells

variable [MomentText] (defaultTtl : Option Seconds)

/-- What a cell shows at a reading of the clock, and whether it drops what it holds. -/
def Cell.get (c : Cell) (expireStale : Bool) (now : Instant) : Option PendingInteraction × Cell :=
  match c.pending with
  | none => (none, c)
  | some p => if expireStale && isStale now p then (none, c.drop) else (some p, c)

def Call.onCell (call : Call) (c : Cell) : Except PyError Answer × Cell :=
  match call with
  | .get expireStale now => (.ok (.interaction (c.get expireStale now).1), (c.get expireStale now).2)
  | .legacyPayload expireStale now =>
    (.ok (.payload ((c.get expireStale now).1.map HardyAI.Context.legacyPayload)),
      (c.get expireStale now).2)
  | .set a => match a.expiry defaultTtl with
    | .error e => (.error e, c)
    | .ok expiry => (.ok (.interaction (some (a.interaction expiry))), c.put (a.interaction expiry))
  | .continue a => match (c.get true a.now).1 with
    | none => (.ok (.interaction none), (c.get true a.now).2)
    | some p => (.ok (.interaction (some (a.apply p))), c.put (a.apply p))
  | .cancel _ _ | .clear => (.ok (.flag c.pending.isSome), c.drop)
  | .expire now => (.ok (.flag (c.pending.any (isStale now))), (c.get true now).2)

def cellAfter (c : Cell) (calls : List Call) : Cell :=
  calls.foldl (fun c call => (call.onCell defaultTtl c).2) c

def cellAnswers (c : Cell) : List Call → List (Except PyError Answer)
  | [] => []
  | call :: calls =>
    (call.onCell defaultTtl c).1 :: cellAnswers (call.onCell defaultTtl c).2 calls

end Cells

section Settled

variable {p : PendingInteraction}

/-- An interaction whose texts have no blanks at their ends. -/
structure PendingInteraction.Settled (p : PendingInteraction) : Prop where
  kind : Trimmed p.kind
  intent : ∀ x ∈ p.intent, Trimmed x
  skillId : ∀ x ∈ p.skillId, Trimmed x
  status : Trimmed p.status
  question : ∀ x ∈ p.question, Trimmed x
  expectedFields : ∀ x ∈ p.expectedFields, Trimmed x
  createdAt : ∀ x ∈ p.createdAt, Trimmed x
  expiresAt : ∀ x ∈ p.expiresAt, Trimmed x
  originTurnId : ∀ x ∈ p.originTurnId, Trimmed x

theorem trimmed_asNonEmptyStr {raw : Option Json} {default : Str} (h : Trimmed default) :
    Trimmed (asNonEmptyStr raw default) := by
  rw [asNonEmptyStr]
  cases hraw : asOptionalStr raw with
  | none => exact h
  | some x => exact trimmed_asOptionalStr x hraw

/-- The interactions that are read back as they are. -/
theorem PendingInteraction.settled_iff :
    parsePendingInteraction (some (.obj p.toDict)) = some p ↔ p.Settled := by
  rw [parsePendingInteraction_toDict]
  constructor
  · intro h
    have hsame := Option.some.inj h
    rw [← hsame]
    exact ⟨trimmed_asNonEmptyStr storedWords.2.1, trimmed_asOptionalStr, trimmed_asOptionalStr,
      trimmed_asNonEmptyStr storedWords.2.2.1, trimmed_asOptionalStr,
      @trimmed_parseStrList (some (strItems p.expectedFields)), trimmed_asOptionalStr,
      trimmed_asOptionalStr, trimmed_asOptionalStr⟩
  · intro h
    rw [asNonEmptyStr_trimmed h.kind, asNonEmptyStr_trimmed h.status,
      asOptionalStr_orNull h.intent, asOptionalStr_orNull h.skillId,
      asOptionalStr_orNull h.question, parseStrList_strItems h.expectedFields, parseDictList_arr,
      asOptionalStr_orNull h.createdAt, asOptionalStr_orNull h.expiresAt,
      asOptionalStr_orNull h.originTurnId]

theorem trimmed_cleanedItems (items : List Str) : ∀ x ∈ cleanedItems items, Trimmed x := by
  intro x hx
  obtain ⟨s, -, hs⟩ := List.mem_filterMap.1 hx
  exact trimmed_cleaned _ x hs

theorem trimmed_orText {s default : Str} (h : Trimmed default) :
    Trimmed (orText (strip s) default) := by
  unfold orText
  split
  · exact h
  · next hne => exact ⟨hne, strip_strip s⟩

theorem SetArgs.interaction_settled (a : SetArgs) (expiry : Option Instant) :
    (a.interaction expiry).Settled where
  kind := trimmed_orText storedWords.2.2.2.1
  intent := trimmed_cleaned (some a.intent)
  skillId := trimmed_cleaned a.skillId
  status := trimmed_orText storedWords.2.2.1
  question := trimmed_cleaned a.question
  expectedFields := trimmed_cleanedItems a.missingFields
  createdAt x hx := by
    obtain rfl := Option.some.inj hx
    exact trimmed_isoUtc a.createdAt
  expiresAt x hx := by
    obtain ⟨t, -, rfl⟩ := Option.map_eq_some_iff.1 hx
    exact trimmed_isoUtc t
  originTurnId _ hx := by cases hx

theorem ContinueArgs.apply_settled (a : ContinueArgs) (h : p.Settled) : (a.apply p).Settled := by
  refine { h with status := ?_, question := ?_, expectedFields := ?_ }
  · show Trimmed ((cleaned a.status).getD p.status)
    cases hstatus : cleaned a.status with
    | none => exact h.status
    | some x => exact trimmed_cleaned _ x hstatus
  · unfold ContinueArgs.apply
    cases a.question with
    | none => exact h.question
    | some s => exact trimmed_cleaned (some s)
  · unfold ContinueArgs.apply
    cases a.missingFields with
    | none => exact h.expectedFields
    | some items => exact trimmed_cleanedItems items

end Settled

section Simulation

variable [PythonText] [PythonFloat] {ref ref' : Fields} {s s' : SessionContextState} {c c' : Cell}

/-- A reference in which a state is read with what a cell holds and falls back to. -/
structure Holds (ref : Fields) (s : SessionContextState) (c : Cell) : Prop where
  read : deserializeSessionContext (.obj ref) = .ok s
  pending : s.pendingInteraction = c.pending
  spare : fallback ref = c.spare

def cancelKeys : List Str := ["last_pending_cancel_reason", "last_pending_cancelled_at"]

/-- Two states that differ in their interactions and in the notes on cancellations. -/
structure Undisturbed (s s' : SessionContextState) : Prop where
  annotations : ∀ k ∉ cancelKeys,
    lookup s'.contextAnnotations k = lookup s.contextAnnotations k
  rest : { s' with
    pendingInteraction := s.pendingInteraction, contextAnnotations := s.contextAnnotations } = s

omit [PythonText] [PythonFloat] in
theorem Undisturbed.trans {s'' : SessionContextState} (h : Undisturbed s s')
    (h' : Undisturbed s' s'') : Undisturbed s s'' where
  annotations k hk := (h'.annotations k hk).trans (h.annotations k hk)
  rest := by
    have hfirst := h.rest
    have hsecond := h'.rest
    rw [← hsecond] at hfirst
    exact hfirst

/-- A reference that holds what a cell holds, with everything else of it as it was. -/
def Moves (ref : Fields) (s : SessionContextState) (ref' : Fields) (c' : Cell) : Prop :=
  ∃ s', Holds ref' s' c' ∧ Undisturbed s s' ∧
    ∀ k ∉ contextKeys, lookup ref' k = lookup ref k

theorem Holds.stays (h : Holds ref s c) : Moves ref s ref c :=
  ⟨s, h, ⟨fun _ _ => rfl, rfl⟩, fun _ _ => rfl⟩

theorem Holds.spare_of_none (h : Holds ref s c) (hnone : c.pending = none) : c.spare = none :=
  h.spare ▸ fallback_of_none h.read (h.pending.trans hnone)

theorem Holds.settled (hlower : ∀ x, Trimmed x → Trimmed (PythonText.lower x))
    (h : Holds ref s c) : ∀ p ∈ c.pending, p.Settled := fun p hp =>
  PendingInteraction.settled_iff.1
    ((deserialize_settled hlower h.read).1.pending p (h.pending.trans hp))

/-- A written interaction is held, and a dropped one gives way to the spare one. -/
theorem Holds.write (hlower : ∀ x, Trimmed x → Trimmed (PythonText.lower x)) (h : Holds ref s c)
    {annotations : Fields}
    (hnotes : ∀ k ∉ cancelKeys, lookup annotations k = lookup s.contextAnnotations k)
    {p : Option PendingInteraction} (hp : ∀ x ∈ p, x.Settled) :
    Moves ref s (writePending ref { s with contextAnnotations := annotations } p)
      { c with pending := p.or c.spare } := by
  obtain ⟨hsettled, hversion⟩ := deserialize_settled hlower h.read
  have hsticky : text "main_sticky_followup" ∉ cancelKeys := by decide +kernel
  have hsettled' : { s with
      contextAnnotations := annotations, pendingInteraction := p }.Settled :=
    { hsettled with pending := fun x hx => PendingInteraction.settled_iff.2 (hp x hx) }
  have hread := deserialize_writeState hlower h.read hsettled'.toSettledApart
    ⟨rfl, rfl, rfl, fun hsome => by rwa [hnotes _ hsticky]⟩
  rw [reread_of_settled hsettled'] at hread
  refine ⟨_, ⟨hread, ?_, ?_⟩, ⟨hnotes, rfl⟩, fun k hk => ?_⟩
  · rw [← h.spare]
    rfl
  · rw [← h.spare]
    exact fallback_writeState hversion
  · exact lookup_writeState_of_notMem hversion hk

/-- A transaction that answers what a cell answers and moves with it. -/
structure Simulates {α : Type} (t : Transaction Fields α) (ref : Fields) (s : SessionContextState)
    (answer : Except PyError α) (c' : Cell) : Prop where
  reply : t.reply ref = answer
  moves : Moves ref s (t.commit ref) c'

variable {α β : Type} {t : Transaction Fields α}

theorem simulates_of_ok {a : α} (ht : t ref = .ok (a, ref')) (hmoves : Moves ref s ref' c') :
    Simulates t ref s (.ok a) c' where
  reply := by rw [Transaction.reply, ht]; rfl
  moves := by rwa [Transaction.commit_of_ok ht]

theorem Simulates.mapReply {answer : Except PyError α} (h : Simulates t ref s answer c')
    (f : α → β) : Simulates (t.mapReply f) ref s (answer.map f) c' where
  reply := by rw [Transaction.reply_mapReply, h.reply]
  moves := by rw [Transaction.commit_mapReply]; exact h.moves

variable [MomentText] (hlower : ∀ x, Trimmed x → Trimmed (PythonText.lower x))

include hlower

omit [MomentText] in
theorem Holds.drops (h : Holds ref s c) : Moves ref s (writePending ref s none) c.drop :=
  h.write hlower (fun _ _ => rfl) fun _ hx => by cases hx

omit [MomentText] in
theorem Holds.puts (h : Holds ref s c) {p : PendingInteraction} (hp : p.Settled) :
    Moves ref s (writePending ref s (some p)) (c.put p) := by
  refine h.write hlower (fun _ _ => rfl) fun x hx => ?_
  obtain rfl := Option.some.inj hx
  exact hp

theorem get_simulates (h : Holds ref s c) (expireStale : Bool) (now : Instant) :
    Simulates (getPendingInteraction expireStale now) ref s (.ok (c.get expireStale now).1)
      (c.get expireStale now).2 := by
  unfold Cell.get
  cases hc : c.pending with
  | none =>
    exact simulates_of_ok (bind_eq_ok.2 ⟨s, h.read, by rw [h.pending, hc]⟩) h.stays
  | some p =>
    dsimp only
    by_cases hstale : (expireStale && isStale now p) = true
    · rw [if_pos hstale]
      refine simulates_of_ok (bind_eq_ok.2 ⟨s, h.read, ?_⟩) (h.drops hlower)
      rw [h.pending, hc]
      exact if_pos hstale
    · rw [if_neg hstale]
      refine simulates_of_ok (bind_eq_ok.2 ⟨s, h.read, ?_⟩) h.stays
      rw [h.pending, hc]
      exact if_neg hstale

omit [MomentText] in
theorem set_simulates (h : Holds ref s c) (defaultTtl : Option Seconds) (a : SetArgs)
    {expiry : Option Instant} (hexpiry : a.expiry defaultTtl = .ok expiry) :
    Simulates (setPendingInteraction defaultTtl a) ref s (.ok (a.interaction expiry))
      (c.put (a.interaction expiry)) :=
  simulates_of_ok (bind_eq_ok.2 ⟨expiry, hexpiry, bind_eq_ok.2 ⟨s, h.read, rfl⟩⟩)
    (h.puts hlower (a.interaction_settled expiry))

theorem continue_simulates (h : Holds ref s c) (a : ContinueArgs) :
    Simulates (continuePendingInteraction a) ref s (.ok ((c.get true a.now).1.map a.apply))
      (match (c.get true a.now).1 with
        | none => (c.get true a.now).2
        | some p => c.put (a.apply p)) := by
  have hsettled := h.settled hlower
  unfold Cell.get
  cases hc : c.pending with
  | none =>
    exact simulates_of_ok (bind_eq_ok.2 ⟨s, h.read, by rw [h.pending, hc]; rfl⟩) h.stays
  | some p =>
    dsimp only
    by_cases hstale : isStale a.now p = true
    · have hguard : (true && isStale a.now p) = true := hstale
      rw [if_pos hguard]
      refine simulates_of_ok (bind_eq_ok.2 ⟨s, h.read, ?_⟩) (h.drops hlower)
      rw [h.pending, hc]
      exact if_pos hstale
    · have hguard : ¬(true && isStale a.now p) = true := hstale
      rw [if_neg hguard]
      refine simulates_of_ok (bind_eq_ok.2 ⟨s, h.read, ?_⟩)
        (h.puts hlower (a.apply_settled (hsettled p hc)))
      rw [h.pending, hc]
      exact if_neg hstale

omit [MomentText] [PythonText] [PythonFloat] hlower in
theorem lookup_cancelNote (annotations : Fields) (reason : Option Str) (now : Instant) :
    ∀ k ∉ cancelKeys, lookup (cancelNote annotations reason now) k = lookup annotations k := by
  intro k hk
  simp only [cancelKeys, List.mem_cons, List.not_mem_nil, or_false, not_or] at hk
  unfold cancelNote
  split
  · rfl
  · rfl
  · rw [lookup_putField, if_neg hk.2, lookup_putField, if_neg hk.1]

omit [MomentText] in
theorem cancel_simulates (h : Holds ref s c) (reason : Option Str) (now : Instant) :
    Simulates (cancelPendingInteraction reason now) ref s (.ok c.pending.isSome) c.drop := by
  cases hc : c.pending with
  | none =>
    rw [Cell.drop_of_none hc (h.spare_of_none hc)]
    exact simulates_of_ok (bind_eq_ok.2 ⟨s, h.read, by rw [h.pending, hc]; rfl⟩) h.stays
  | some p =>
    refine simulates_of_ok (bind_eq_ok.2 ⟨s, h.read, ?_⟩) (h.write (p := none) hlower
      (lookup_cancelNote s.contextAnnotations reason now) fun _ hx => by cases hx)
    rw [h.pending, hc]
    rfl

omit [MomentText] in
theorem clear_simulates (h : Holds ref s c) :
    Simulates clearPendingInteraction ref s (.ok c.pending.isSome) c.drop := by
  cases hc : c.pending with
  | none =>
    rw [Cell.drop_of_none hc (h.spare_of_none hc)]
    exact simulates_of_ok (bind_eq_ok.2 ⟨s, h.read, by rw [h.pending, hc]; rfl⟩) h.stays
  | some p =>
    refine simulates_of_ok (bind_eq_ok.2 ⟨s, h.read, ?_⟩) (h.drops hlower)
    rw [h.pending, hc]
    rfl

theorem expire_simulates (h : Holds ref s c) (now : Instant) :
    Simulates (expireStalePendingInteraction now) ref s (.ok (c.pending.any (isStale now)))
      (c.get true now).2 := by
  unfold Cell.get
  cases hc : c.pending with
  | none =>
    exact simulates_of_ok (bind_eq_ok.2 ⟨s, h.read, by rw [h.pending, hc]; rfl⟩) h.stays
  | some p =>
    dsimp only [Option.any_some]
    by_cases hstale : isStale now p = true
    · have hguard : (true && isStale now p) = true := hstale
      rw [if_pos hguard, hstale]
      refine simulates_of_ok (bind_eq_ok.2 ⟨s, h.read, ?_⟩) (h.drops hlower)
      rw [h.pending, hc]
      exact if_pos hstale
    · have hguard : ¬(true && isStale now p) = true := hstale
      rw [if_neg hguard, Bool.eq_false_iff.2 hstale]
      refine simulates_of_ok (bind_eq_ok.2 ⟨s, h.read, ?_⟩) h.stays
      rw [h.pending, hc]
      exact if_neg hstale

/-- One call answers what the cell answers. -/
theorem run_simulates (h : Holds ref s c) (defaultTtl : Option Seconds) (call : Call) :
    Simulates (call.run defaultTtl) ref s (call.onCell defaultTtl c).1
      (call.onCell defaultTtl c).2 := by
  cases call with
  | get expireStale now => exact (get_simulates hlower h expireStale now).mapReply _
  | legacyPayload expireStale now =>
    exact ((get_simulates hlower h expireStale now).mapReply _).mapReply _
  | set a =>
    cases hexpiry : a.expiry defaultTtl with
    | ok expiry =>
      have hcell : (Call.set a).onCell defaultTtl c =
          (.ok (.interaction (some (a.interaction expiry))), c.put (a.interaction expiry)) := by
        simp only [Call.onCell, hexpiry]
      rw [hcell]
      exact (set_simulates hlower h defaultTtl a hexpiry).mapReply fun p =>
        Answer.interaction (some p)
    | error e =>
      have hcell : (Call.set a).onCell defaultTtl c = (.error e, c) := by
        simp only [Call.onCell, hexpiry]
      have hfail : setPendingInteraction defaultTtl a ref = .error e := by
        rw [setPendingInteraction, hexpiry]
        rfl
      have hmapped : (Call.set a).run defaultTtl ref = .error e := by
        rw [Call.run, Transaction.mapReply, hfail]
        rfl
      rw [hcell]
      refine ⟨?_, ?_⟩
      · rw [Transaction.reply, hmapped]
        rfl
      · rw [Transaction.commit_of_error hmapped]
        exact h.stays
  | «continue» a =>
    have hstep := (continue_simulates hlower h a).mapReply Answer.interaction
    cases hget : (c.get true a.now).1 with
    | none =>
      have hcell : (Call.continue a).onCell defaultTtl c =
          (.ok (.interaction none), (c.get true a.now).2) := by
        simp only [Call.onCell, hget]
      rw [hget] at hstep
      rw [hcell]
      exact hstep
    | some p =>
      have hcell : (Call.continue a).onCell defaultTtl c =
          (.ok (.interaction (some (a.apply p))), c.put (a.apply p)) := by
        simp only [Call.onCell, hget]
      rw [hget] at hstep
      rw [hcell]
      exact hstep
  | cancel reason now => exact (cancel_simulates hlower h reason now).mapReply _
  | clear => exact (clear_simulates hlower h).mapReply _
  | expire now => exact (expire_simulates hlower h now).mapReply _

/-- A whole run of calls answers what the cell answers. -/
theorem calls_simulate (h : Holds ref s c) (defaultTtl : Option Seconds) (calls : List Call) :
    answers defaultTtl ref calls = cellAnswers defaultTtl c calls ∧
      Moves ref s (referenceAfter defaultTtl ref calls) (cellAfter defaultTtl c calls) := by
  induction calls generalizing ref s c with
  | nil => exact ⟨rfl, h.stays⟩
  | cons call calls ih =>
    obtain ⟨hreply, s', hholds, hsame, hkeys⟩ := run_simulates hlower h defaultTtl call
    obtain ⟨hanswers, s'', hholds', hsame', hkeys'⟩ := ih hholds
    refine ⟨?_, s'', hholds', hsame.trans hsame', fun k hk => (hkeys' k hk).trans (hkeys k hk)⟩
    rw [answers, cellAnswers, hreply, hanswers]

end Simulation

section Runs

variable [PythonText] [PythonFloat] [MomentText] {ref : Fields} {s : SessionContextState} {c : Cell}

/-- What a session shows after some calls is what the cell shows. -/
theorem get_after (hlower : ∀ x, Trimmed x → Trimmed (PythonText.lower x)) (h : Holds ref s c)
    (defaultTtl : Option Seconds) (calls : List Call) (expireStale : Bool) (now : Instant) :
    ((Call.get expireStale now).run defaultTtl).reply (referenceAfter defaultTtl ref calls) =
      .ok (.interaction ((cellAfter defaultTtl c calls).get expireStale now).1) := by
  obtain ⟨-, s', hholds, -, -⟩ := calls_simulate hlower h defaultTtl calls
  exact (run_simulates hlower hholds defaultTtl (.get expireStale now)).reply

def Call.IsSet : Call → Prop
  | .set _ => True
  | .get _ _ | .legacyPayload _ _ | .continue _ | .cancel _ _ | .clear | .expire _ => False

omit [PythonText] [PythonFloat] in
/-- A cell with nothing in it stays so until an interaction is set. -/
theorem cellAfter_empty (hpending : c.pending = none) (hspare : c.spare = none)
    (defaultTtl : Option Seconds) {calls : List Call} (hcalls : ∀ call ∈ calls, ¬call.IsSet) :
    cellAfter defaultTtl c calls = c := by
  have hget (expireStale : Bool) (now : Instant) : c.get expireStale now = (none, c) := by
    rw [Cell.get, hpending]
  induction calls with
  | nil => rfl
  | cons call calls ih =>
    have hstep : (call.onCell defaultTtl c).2 = c := by
      have hset := hcalls call List.mem_cons_self
      cases call with
      | set a => exact absurd trivial hset
      | get expireStale now | legacyPayload expireStale now => exact congrArg Prod.snd (hget _ _)
      | «continue» a => simp only [Call.onCell, hget]
      | cancel reason now | clear => exact Cell.drop_of_none hpending hspare
      | expire now => exact congrArg Prod.snd (hget _ _)
    show cellAfter defaultTtl (call.onCell defaultTtl c).2 calls = c
    rw [hstep]
    exact ih fun call' hcall' => hcalls call' (List.mem_cons_of_mem call hcall')

omit [PythonText] [PythonFloat] in
/-- The calls that answer that an interaction has been dropped have dropped it. -/
theorem drop_of_flag (defaultTtl : Option Seconds) {call : Call}
    (h : (call.onCell defaultTtl c).1 = .ok (.flag true)) :
    (call.onCell defaultTtl c).2 = c.drop := by
  cases call with
  | get expireStale now | legacyPayload expireStale now => cases h
  | set a =>
    simp only [Call.onCell] at h
    split at h <;> cases h
  | «continue» a =>
    simp only [Call.onCell] at h
    split at h <;> cases h
  | cancel reason now | clear => rfl
  | expire now =>
    have hany : c.pending.any (isStale now) = true := Answer.flag.inj (Except.ok.inj h)
    obtain ⟨p, hp, hstale⟩ := (Option.any_eq_true _ _).1 hany
    show (c.get true now).2 = c.drop
    rw [Cell.get, hp]
    exact congrArg Prod.snd (if_pos hstale)

end Runs

section Lifetime

variable [PythonText] [PythonFloat] [MomentText] {ref : Fields} {s : SessionContextState} {c : Cell}

/-- Before the end of an interaction, if it has one. -/
def Alive (expiry : Option Instant) (now : Instant) : Prop := ∀ t ∈ expiry, now < t

instance (expiry : Option Instant) (now : Instant) : Decidable (Alive expiry now) :=
  inferInstanceAs (Decidable (∀ t ∈ expiry, now < t))

/-- A call that looks at an interaction while it is alive. -/
def Call.Looks (expiry : Option Instant) : Call → Prop
  | .get expireStale now | .legacyPayload expireStale now =>
    expireStale = true → Alive expiry now
  | .expire now => Alive expiry now
  | .set _ | .continue _ | .cancel _ _ | .clear => False

omit [PythonText] [PythonFloat] in
theorem isStale_interaction (a : SetArgs) (expiry : Option Instant) (now : Instant) :
    isStale now (a.interaction expiry) = true ↔ ¬Alive expiry now := by
  cases expiry with
  | none => simp [isStale, SetArgs.interaction, Alive]
  | some t =>
    have hne : strip (isoUtc t) ≠ [] := by
      rw [strip_isoUtc]
      exact isoUtc_ne_nil t
    simp [isStale, SetArgs.interaction, Alive, hne, MomentText.moment_isoUtc]

omit [PythonText] [PythonFloat] in
theorem cellAfter_looks (a : SetArgs) {expiry : Option Instant}
    (hpending : c.pending = some (a.interaction expiry)) (defaultTtl : Option Seconds)
    {calls : List Call} (hcalls : ∀ call ∈ calls, call.Looks expiry) :
    cellAfter defaultTtl c calls = c := by
  have hget {expireStale : Bool} {now : Instant} (h : expireStale = true → Alive expiry now) :
      (c.get expireStale now).2 = c := by
    have hkept : ¬(expireStale && isStale now (a.interaction expiry)) = true := by
      rw [Bool.and_eq_true]
      exact fun hstale => (isStale_interaction a expiry now).1 hstale.2 (h hstale.1)
    rw [Cell.get, hpending]
    exact congrArg Prod.snd (if_neg hkept)
  induction calls with
  | nil => rfl
  | cons call calls ih =>
    have hstep : (call.onCell defaultTtl c).2 = c := by
      have hlooks := hcalls call List.mem_cons_self
      cases call with
      | get expireStale now | legacyPayload expireStale now => exact hget hlooks
      | expire now => exact hget fun _ => hlooks
      | set a | «continue» a | cancel reason now | clear => exact absurd hlooks id
    show cellAfter defaultTtl (call.onCell defaultTtl c).2 calls = c
    rw [hstep]
    exact ih fun call' hcall' => hcalls call' (List.mem_cons_of_mem call hcall')

/-- Half an hour from the start of the clock on. -/
def sampleArgs : SetArgs where
  intent := "lists.add"
  entities := []
  missingFields := ["item"]
  question := some "Which item?"
  expiresInSeconds := some (.micros 1800000000)
  createdAt := ⟨0, zero_lt_maxMicros⟩
  now := ⟨0, zero_lt_maxMicros⟩

end Lifetime

end HardyAI.Context
