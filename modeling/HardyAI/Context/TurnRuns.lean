import HardyAI.Context.Turns
import HardyAI.Foundation.Window

/-! The recent turns over whole runs: what a session keeps is a window over all turns that were
recorded in it. -/

open Foundation Foundation.Json HardyAI.Tasks HardyAI.Skills HardyAI.Reviews.Service

namespace HardyAI.Context

section Pruning

variable {limits : TurnLimits} {turns : List RecentTurn}

/-- What the limits leave room for: so many turns, with so many characters unless it is one. -/
def Fits (limits : TurnLimits) (turns : List RecentTurn) : Prop :=
  turns.length ≤ limits.maxRecentTurns ∧
    (turnsChars turns ≤ limits.maxRecentChars ∨ turns.length ≤ 1)

instance (limits : TurnLimits) : DecidablePred (Fits limits) := fun turns =>
  inferInstanceAs (Decidable (turns.length ≤ limits.maxRecentTurns ∧
    (turnsChars turns ≤ limits.maxRecentChars ∨ turns.length ≤ 1)))

theorem turnsChars_append (xs ys : List RecentTurn) :
    turnsChars (xs ++ ys) = turnsChars xs + turnsChars ys := by
  rw [turnsChars, List.map_append, List.sum_append, ← turnsChars, ← turnsChars]

theorem length_strip (s : Str) : (strip s).length ≤ s.length := by
  obtain ⟨front, back, hs⟩ := strip_infix s
  have hlength := congrArg List.length hs
  rw [List.length_append, List.length_append] at hlength
  omega

theorem length_asNonEmptyStr (s : Str) : (asNonEmptyStr (some (.str s)) []).length ≤ s.length := by
  rw [asNonEmptyStr, asOptionalStr]
  split
  · exact Nat.zero_le _
  · exact length_strip s

/-- A turn is stored with no more characters than it has. -/
theorem turnsChars_stored (turns : List RecentTurn) :
    turnsChars (turns.map storedTurn) ≤ turnsChars turns := by
  induction turns with
  | nil => exact le_rfl
  | cons t turns ih =>
    have htext : (storedTurn t).text.length ≤ t.text.length := by
      rw [storedTurn, parseRecentTurn, lookup_at t.keys_nodup 2 rfl]
      exact length_asNonEmptyStr t.text
    have hnormalized : (storedTurn t).normalizedText.length ≤ t.normalizedText.length := by
      rw [storedTurn, parseRecentTurn, lookup_at t.keys_nodup 3 rfl]
      exact length_asNonEmptyStr t.normalizedText
    simp only [turnsChars, List.map_cons, List.sum_cons] at ih ⊢
    omega

theorem room (limits : TurnLimits) : Room (Fits limits) storedTurn where
  nil := ⟨Nat.zero_le _, .inl (Nat.zero_le _)⟩
  left xs ys h := by
    have hchars := turnsChars_append xs ys
    simp only [Fits, List.length_append] at h ⊢
    omega
  right xs ys h := by
    have hchars := turnsChars_append xs ys
    simp only [Fits, List.length_append] at h ⊢
    omega
  storing xs ys h := by
    have hstored := turnsChars_append (xs.map storedTurn) ys
    have hchars := turnsChars_append xs ys
    have hless := turnsChars_stored xs
    simp only [Fits, List.length_append, List.length_map] at h ⊢
    omega

/-- Pruning by characters alone. -/
theorem pruneByChars_spec (hcount : turns.length ≤ limits.maxRecentTurns) :
    (pruneByChars limits turns).1 = window (Fits limits) turns ∧
      (pruneByChars limits turns).2 + (pruneByChars limits turns).1.length = turns.length := by
  induction turns with
  | nil => exact ⟨rfl, rfl⟩
  | cons t turns ih =>
    cases turns with
    | nil =>
      have hfits : Fits limits [t] := ⟨hcount, .inr le_rfl⟩
      exact ⟨(if_pos hfits).symm, rfl⟩
    | cons u rest =>
      obtain ⟨hkept, hlength⟩ := ih (by simp only [List.length_cons] at hcount ⊢; omega)
      rw [pruneByChars, window]
      by_cases hover : limits.maxRecentChars < turnsChars (t :: u :: rest)
      · have hfull : ¬Fits limits (t :: u :: rest) := by
          simp only [Fits, List.length_cons]
          omega
        rw [if_pos hover, if_neg hfull]
        refine ⟨hkept, ?_⟩
        simp only [List.length_cons] at hlength ⊢
        omega
      · have hfits : Fits limits (t :: u :: rest) := ⟨hcount, .inl (by omega)⟩
        rw [if_neg hover, if_pos hfits]
        exact ⟨rfl, Nat.zero_add _⟩

/-- Where there are too many turns the first ones do not count. -/
theorem window_drop (limits : TurnLimits) (turns : List RecentTurn) :
    window (Fits limits) (turns.drop (turns.length - limits.maxRecentTurns)) =
      window (Fits limits) turns := by
  induction turns with
  | nil => rw [List.drop_nil]
  | cons t turns ih =>
    by_cases hmany : limits.maxRecentTurns < (t :: turns).length
    · have hover : ¬Fits limits (t :: turns) := fun h => absurd h.1 (by omega)
      have hdrop : (t :: turns).length - limits.maxRecentTurns =
          (turns.length - limits.maxRecentTurns) + 1 := by
        rw [List.length_cons] at hmany ⊢
        omega
      rw [hdrop, List.drop_succ_cons, ih, window, if_neg hover]
    · have hnone : (t :: turns).length - limits.maxRecentTurns = 0 := by omega
      rw [hnone, List.drop_zero]

theorem prune_spec (limits : TurnLimits) (turns : List RecentTurn) :
    (prune limits turns).1 = window (Fits limits) turns ∧
      (prune limits turns).2 + (prune limits turns).1.length = turns.length := by
  have hcount : (pruneByCount limits turns).1.length ≤ limits.maxRecentTurns := by
    rw [pruneByCount, List.length_drop]
    omega
  obtain ⟨hkept, hlength⟩ := pruneByChars_spec hcount
  have hdropped : (pruneByCount limits turns).2 + (pruneByCount limits turns).1.length =
      turns.length := by
    rw [pruneByCount, List.length_drop]
    omega
  constructor
  · exact hkept.trans (window_drop limits turns)
  · dsimp only [prune]
    omega

end Pruning

section Counting

variable [PythonText] {limits : TurnLimits} {e : Exchange} {counter : Int}

theorem turn_spec {n : Int} {role : String} {content : Str} {references : Fields} {time : Instant}
    {t : RecentTurn} (h : e.turn n role content references time = .ok t) :
    ∃ number, pyStr (.int n) = .ok number ∧ t.turnId = some (text "turn-" ++ number) := by
  obtain ⟨number, hnumber, ht⟩ := bind_eq_ok.1 h
  obtain rfl := Except.ok.inj ht
  exact ⟨number, hnumber, rfl⟩

/-- Turns with consecutive numbers. -/
def Numbered (counter : Int) (turns : List RecentTurn) : Prop :=
  ∀ (i : Nat) t, turns[i]? = some t →
    ∃ number, pyStr (.int (counter + i + 1)) = .ok number ∧ t.turnId = some (text "turn-" ++ number)

theorem Numbered.append {xs ys : List RecentTurn} (hxs : Numbered counter xs)
    (hys : Numbered (counter + xs.length) ys) : Numbered counter (xs ++ ys) := by
  intro i t ht
  by_cases hfront : i < xs.length
  · rw [List.getElem?_append_left hfront] at ht
    exact hxs i t ht
  · rw [List.getElem?_append_right (by omega)] at ht
    obtain ⟨number, hnumber, hid⟩ := hys _ t ht
    have hsame : counter + xs.length + ((i - xs.length : Nat) : Int) = counter + i := by omega
    rw [hsame] at hnumber
    exact ⟨number, hnumber, hid⟩

theorem numbered_nil : Numbered counter [] := fun i t ht => by cases ht

theorem numbered_singleton {t : RecentTurn} {number : Str}
    (hnumber : pyStr (.int (counter + 1)) = .ok number)
    (hid : t.turnId = some (text "turn-" ++ number)) : Numbered counter [t] := by
  intro i u hu
  obtain ⟨hi, hu⟩ := List.getElem?_eq_some_iff.1 hu
  obtain rfl : i = 0 := by simpa using hi
  obtain rfl : t = u := hu
  have hfirst : counter + ((0 : Nat) : Int) + 1 = counter + 1 := by omega
  exact ⟨number, hfirst.symm ▸ hnumber, hid⟩

theorem turnOf_spec {role : String} {content : Str} {references : Fields} {time : Instant}
    {turns : List RecentTurn} (h : e.turnOf counter role content references time = .ok turns) :
    Numbered counter turns ∧ (turns = [] ↔ content = []) := by
  unfold Exchange.turnOf at h
  split at h
  · next hnil =>
    obtain rfl := Except.ok.inj h
    exact ⟨numbered_nil, fun _ => hnil, fun _ => rfl⟩
  · next hsome =>
    obtain ⟨t, ht, rfl⟩ := map_eq_ok.1 h
    obtain ⟨number, hnumber, hid⟩ := turn_spec ht
    exact ⟨numbered_singleton hnumber hid, fun hnil => absurd hnil (List.cons_ne_nil _ _),
      fun hnil => absurd hnil hsome⟩

theorem turns_spec {turns : List RecentTurn} (h : e.turns limits counter = .ok turns) :
    Numbered counter turns ∧ (turns = [] ↔
      truncateText limits e.userText = [] ∧ truncateText limits e.assistantText = []) := by
  obtain ⟨asked, hasked, h⟩ := bind_eq_ok.1 h
  obtain ⟨answered, hanswered, h⟩ := bind_eq_ok.1 h
  obtain rfl := Except.ok.inj h
  obtain ⟨haskedNumbers, haskedNil⟩ := turnOf_spec hasked
  obtain ⟨hansweredNumbers, hansweredNil⟩ := turnOf_spec hanswered
  refine ⟨haskedNumbers.append hansweredNumbers, ?_⟩
  rw [List.append_eq_nil_iff, haskedNil, hansweredNil]

end Counting

section Recording

variable [PythonText] [PythonFloat] {limits : TurnLimits} {ref : Fields} {s : SessionContextState}
  {counter : Int} {e : Exchange} {new : List RecentTurn}

/-- A reference that is read as a state, whose turns are numbered up to a number. -/
structure Counts (ref : Fields) (s : SessionContextState) (counter : Int) : Prop where
  read : deserializeSessionContext (.obj ref) = .ok s
  counter : turnCounter s.contextAnnotations = .ok counter

omit [PythonFloat] in
theorem annotation_adapted (raw : Fields) (turns : Whole) (s : SessionContextState) {k : Str}
    (hk : k ≠ "main_sticky_followup") :
    lookup (currentVersion (adapted raw turns s)).contextAnnotations k =
      lookup s.contextAnnotations k := by
  have hkept (rawValue : Option Json) (domain entityType legacyKey : Str)
      (s : SessionContextState) :
      (ensureLegacyEntity rawValue domain entityType legacyKey s).contextAnnotations =
        s.contextAnnotations := by
    unfold ensureLegacyEntity
    split
    · rfl
    · split <;> rfl
  have hsame : (currentVersion (adapted raw turns s)).contextAnnotations =
      (adaptSticky raw turns (adaptEntities raw (adaptPending raw s))).contextAnnotations := by
    unfold currentVersion adapted adaptChannelRuntime adaptTokenSession
    split_ifs <;> rfl
  have hentities : (adaptEntities raw (adaptPending raw s)).contextAnnotations =
      s.contextAnnotations := by
    rw [adaptEntities, hkept, hkept, hkept]
    rfl
  rw [hsame, adaptSticky]
  split
  · exact (lookup_putField _ _ _).trans ((if_neg hk).trans (congrArg (lookup · k) hentities))
  · rw [hentities]

theorem Counts.annotation (h : Counts ref s counter) {k : Str} (hk : k ≠ "main_sticky_followup") :
    lookup s.contextAnnotations k = lookup (parseDict (lookup ref "context_annotations")) k := by
  obtain ⟨version, summary, registry, turns, -, -, -, -, hs⟩ := deserialize_eq_ok.1 h.read
  rw [hs, annotation_adapted _ _ _ hk]
  rfl

omit [PythonFloat] in
/-- The numbers of turns are counted from zero on. -/
theorem turnCounter_eq_ok {annotations : Fields} :
    turnCounter annotations = .ok counter ↔
      ∃ n, asInt (lookup annotations "recent_turn_counter") 0 = .ok n ∧ max 0 n.value = counter :=
  map_eq_ok

omit [PythonFloat] in
theorem turnCounter_put (annotations : Fields) (hcounter : 0 ≤ counter) :
    turnCounter (putField annotations ("recent_turn_counter", .int counter)) = .ok counter := by
  refine turnCounter_eq_ok.2 ⟨.int counter, ?_, max_eq_right hcounter⟩
  rw [lookup_putField, if_pos rfl]
  rfl

theorem Counts.nonneg (h : Counts ref s counter) : 0 ≤ counter := by
  obtain ⟨n, -, rfl⟩ := turnCounter_eq_ok.1 h.counter
  exact le_max_left 0 n.value

omit [PythonText] [PythonFloat] in
theorem counterKey_ne : text "recent_turn_counter" ≠ text "main_sticky_followup" := by decide

/-- What is written with new turns differs from what stood there: its counter is higher. -/
theorem Counts.changed (h : Counts ref s counter) (hversion : 1 ≤ s.version) (hnew : new ≠ []) :
    same (.obj (writeState ref (s.record limits new counter))) (.obj ref) = false := by
  rw [Bool.eq_false_iff]
  intro hsame
  obtain ⟨others, hothers, hfields⟩ := same_obj hsame
  obtain rfl := Json.obj.inj hothers
  have hwritten : lookup (writeState ref (s.record limits new counter)) "context_annotations" =
      some (.obj (s.record limits new counter).contextAnnotations) := by
    rw [lookup_writeState (s := s.record limits new counter) hversion,
      lookup_at (s.record limits new counter).keys_nodup 8 rfl, Option.some_or]
  obtain ⟨w, hw, hannotations⟩ := hfields _ _ (mem_of_lookup hwritten)
  obtain ⟨stored, rfl, hstored⟩ := same_obj hannotations
  have hcount : lookup (s.record limits new counter).contextAnnotations "recent_turn_counter" =
      some (.int (counter + new.length)) := by
    rw [SessionContextState.record, lookup_putField, if_pos rfl]
  obtain ⟨raw, hraw, hnumber⟩ := hstored _ _ (mem_of_lookup hcount)
  obtain ⟨n, hn, hmax⟩ := turnCounter_eq_ok.1 h.counter
  rw [h.annotation counterKey_ne, hw] at hn
  have hread : asInt (some raw) 0 = .ok n := by
    rw [← hraw]
    exact hn
  have hvalue := same_int hnumber hread
  have hsome : 0 < new.length := List.length_pos_iff.2 hnew
  have hnonneg := h.nonneg
  omega

/-- What an exchange does to the reference of a session, and what it answers. -/
theorem recordExchange_eq (h : Counts ref s counter) (hversion : 1 ≤ s.version)
    (hnew : e.turns limits counter = .ok new) :
    recordExchange limits e ref =
      if new = [] then .ok (⟨false, 0, 0, 0, 0⟩, ref)
      else .ok (recordUpdate true new.length (prune limits (s.recentTurns ++ new)),
        writeState ref (s.record limits new counter)) := by
  rw [recordExchange]
  obtain ⟨-, hnil⟩ := turns_spec hnew
  by_cases hsome : new = []
  · rw [if_pos (hnil.1 hsome), if_pos hsome]
  · rw [if_neg (fun hempty => hsome (hnil.2 hempty)), if_neg hsome]
    refine bind_eq_ok.2 ⟨s, h.read, bind_eq_ok.2 ⟨counter, h.counter, bind_eq_ok.2 ⟨new, hnew, ?_⟩⟩⟩
    have hchanged : same (.obj (writeState ref (s.record limits new counter))) (.obj ref) = false :=
      h.changed hversion hsome
    simp only [hchanged, Bool.not_false, if_true]

theorem recordExchange_error (h : Counts ref s counter) {err : PyError}
    (hnew : e.turns limits counter = .error err) :
    (recordExchange limits e).commit ref = ref := by
  by_cases hempty : truncateText limits e.userText = [] ∧ truncateText limits e.assistantText = []
  · exact Transaction.commit_of_ok (a := ⟨false, 0, 0, 0, 0⟩) (if_pos hempty)
  · refine Transaction.commit_of_error (e := err) ?_
    rw [recordExchange, if_neg hempty]
    exact bind_eq_error.2 (.inr ⟨s, h.read, bind_eq_error.2 (.inr ⟨counter, h.counter,
      bind_eq_error.2 (.inl hnew)⟩)⟩)

/-- The turns that an exchange records behind the turns up to a number. -/
def Exchange.recorded (limits : TurnLimits) (e : Exchange) (counter : Int) : List RecentTurn :=
  (e.turns limits counter).toOption.getD []

/-- The turns that some exchanges record, each behind the ones before it. -/
def recordedTurns (limits : TurnLimits) : Int → List Exchange → List RecentTurn
  | _, [] => []
  | counter, e :: es => e.recorded limits counter ++
      recordedTurns limits (counter + (e.recorded limits counter).length) es

/-- The reference of a session after some exchanges. -/
def referenceAfterExchanges (limits : TurnLimits) (ref : Fields) (es : List Exchange) : Fields :=
  es.foldl (fun ref e => (recordExchange limits e).commit ref) ref

/-- A session in which some turns were recorded since a state, and the state it is read as. -/
structure Recorded (limits : TurnLimits) (start : SessionContextState) (counter : Int)
    (new : List RecentTurn) (s : SessionContextState) : Prop where
  shows : Shows (Fits limits) storedTurn (start.recentTurns ++ new) s.recentTurns
  fits : new ≠ [] → Fits limits s.recentTurns
  numbered : Numbered counter new
  counted : turnCounter s.contextAnnotations = .ok (counter + new.length)
  apart : { s with recentTurns := start.recentTurns
                   contextAnnotations := start.contextAnnotations } = start
  annotations : ∀ k : Str, k ≠ "recent_turn_counter" →
    lookup s.contextAnnotations k = lookup start.contextAnnotations k

variable {start : SessionContextState}

omit [PythonFloat] in
theorem recorded_start (hturns : start.recentTurns.map storedTurn = start.recentTurns)
    (hcounter : turnCounter start.contextAnnotations = .ok counter) :
    Recorded limits start counter [] start where
  shows := by
    rw [List.append_nil]
    exact Shows.start hturns
  fits hnil := absurd rfl hnil
  numbered := numbered_nil
  counted := by simpa using hcounter
  apart := rfl
  annotations _ _ := rfl

/-- A state that is written behind some new turns is read back with its turns as they are
stored. -/
theorem read_record (hlower : ∀ x, Trimmed x → Trimmed (PythonText.lower x))
    (h : Counts ref s counter) :
    deserializeSessionContext (.obj (writeState ref (s.record limits new counter))) =
      .ok (s.record limits new counter).reread := by
  obtain ⟨hsettled, -⟩ := deserialize_settled hlower h.read
  have hkept : KeepsAdopted s (s.record limits new counter) := by
    refine ⟨rfl, rfl, rfl, fun hsticky => ?_⟩
    rw [SessionContextState.record, lookup_putField, if_neg counterKey_ne.symm]
    exact hsticky
  have hapart : (s.record limits new counter).SettledApart := { hsettled with }
  rw [deserialize_writeState hlower h.read hapart hkept]
  exact congrArg Except.ok (adaptPending_self fun hnone => fallback_of_none h.read hnone)

omit [PythonFloat] in
theorem Recorded.record {old : List RecentTurn} (h : Recorded limits start counter old s)
    (hturns : s.recentTurns.map storedTurn = s.recentTurns) (hnonneg : 0 ≤ counter)
    (hnew : Numbered (counter + old.length) new) :
    Recorded limits start counter (old ++ new)
      (s.record limits new (counter + old.length)).reread where
  shows := by
    have hwindow : ((s.record limits new (counter + old.length)).reread).recentTurns =
        slide (Fits limits) storedTurn s.recentTurns new :=
      congrArg (List.map storedTurn) (prune_spec limits _).1
    rw [hwindow, ← List.append_assoc]
    exact h.shows.slide (room limits) hturns new
  fits _ := by
    have hfits := fits_slide (room limits) s.recentTurns new
    rwa [slide, ← (prune_spec limits _).1] at hfits
  numbered := h.numbered.append hnew
  counted := by
    have hsum : counter + old.length + new.length = counter + (old ++ new).length := by
      rw [List.length_append, Nat.cast_add, add_assoc]
    show turnCounter (putField s.contextAnnotations
      ("recent_turn_counter", .int (counter + old.length + new.length))) = _
    rw [hsum]
    exact turnCounter_put _ (by omega)
  apart := h.apart
  annotations k hk := by
    show lookup (putField s.contextAnnotations _) k = _
    rw [lookup_putField, if_neg hk]
    exact h.annotations k hk

/-- One more exchange. -/
theorem Recorded.step (hlower : ∀ x, Trimmed x → Trimmed (PythonText.lower x))
    {old : List RecentTurn} (h : Recorded limits start counter old s) (hnonneg : 0 ≤ counter)
    (hread : deserializeSessionContext (.obj ref) = .ok s) (e : Exchange) :
    ∃ s', deserializeSessionContext (.obj ((recordExchange limits e).commit ref)) = .ok s' ∧
      Recorded limits start counter (old ++ e.recorded limits (counter + old.length)) s' ∧
      ∀ k ∉ contextKeys, lookup ((recordExchange limits e).commit ref) k = lookup ref k := by
  have hcounts : Counts ref s (counter + old.length) := ⟨hread, h.counted⟩
  obtain ⟨hsettled, hversion⟩ := deserialize_settled hlower hread
  cases hturns : e.turns limits (counter + old.length) with
  | error err =>
    have hnone : e.recorded limits (counter + old.length) = [] := by
      rw [Exchange.recorded, hturns]
      rfl
    rw [hnone, List.append_nil, recordExchange_error hcounts hturns]
    exact ⟨s, hread, h, fun _ _ => rfl⟩
  | ok new =>
    have hrecorded : e.recorded limits (counter + old.length) = new := by
      rw [Exchange.recorded, hturns]
      rfl
    have hcommit := recordExchange_eq hcounts hversion hturns
    rw [hrecorded]
    by_cases hnil : new = []
    · rw [if_pos hnil] at hcommit
      rw [Transaction.commit_of_ok hcommit, hnil, List.append_nil]
      exact ⟨s, hread, h, fun _ _ => rfl⟩
    · rw [if_neg hnil] at hcommit
      rw [Transaction.commit_of_ok hcommit]
      refine ⟨_, read_record hlower hcounts, ?_, fun k hk => ?_⟩
      · exact h.record (reread_turns hsettled) hnonneg (turns_spec hturns).1
      · exact lookup_writeState_of_notMem
          (s := s.record limits new (counter + old.length)) hversion hk

end Recording

section Sample

def sampleExchange : Exchange where
  userText := " Add   milk "
  assistantText := "Added."
  intent := some "lists.add"
  route := some "skill"
  skillId := none
  userTime := ⟨0, zero_lt_maxMicros⟩
  assistantTime := ⟨1000000, second_lt_maxMicros⟩

end Sample

end HardyAI.Context
