import HardyAI.Context.Reference
import HardyAI.Foundation.TextForms

/-! The recent turns of a session: each exchange appends its turns, and turns fall off in front. -/

open Foundation Foundation.Json HardyAI.Tasks HardyAI.Skills HardyAI.Reviews.Service

namespace HardyAI.Context

section Equality

mutual

/-- `==` of two values. -/
def same : Json → Json → Bool
  | .arr xs, .arr ys => sameItems xs ys
  | .obj fields, .obj others => fields.length = others.length && sameEntries fields others
  | x, y => isScalar x && isScalar y && sameScalar x y

def sameItems : List Json → List Json → Bool
  | [], [] => true
  | x :: xs, y :: ys => same x y && sameItems xs ys
  | _, _ => false

def sameEntries : Fields → Fields → Bool
  | [], _ => true
  | (k, x) :: fields, others => (lookup others k).any (same x) && sameEntries fields others

end

theorem sameEntries_mem {fields others : Fields} (h : sameEntries fields others = true) {k : Str}
    {x : Json} (hx : (k, x) ∈ fields) : ∃ y, lookup others k = some y ∧ same x y = true := by
  induction fields with
  | nil => cases hx
  | cons p fields ih =>
    obtain ⟨l, z⟩ := p
    rw [sameEntries, Bool.and_eq_true] at h
    rcases List.mem_cons.1 hx with heq | hx
    · obtain ⟨rfl, rfl⟩ := Prod.mk.inj heq
      obtain ⟨y, hy, hsame⟩ := (Option.any_eq_true _ _).1 h.1
      exact ⟨y, hy, hsame⟩
    · exact ih h.2 hx

/-- A dictionary that equals another one has its keys, with equal values. -/
theorem same_obj {fields : Fields} {y : Json} (h : same (.obj fields) y = true) :
    ∃ others, y = .obj others ∧
      ∀ k x, (k, x) ∈ fields → ∃ w, lookup others k = some w ∧ same x w = true := by
  cases y with
  | obj others =>
    rw [same, Bool.and_eq_true] at h
    exact ⟨others, rfl, fun k x hx => sameEntries_mem h.2 hx⟩
  | null | bool b | int n | float bits | str s | arr items => simp [same, isScalar] at h

/-- A float that equals a whole number is cut to it. -/
theorem trunc_of_sameNumber {n mantissa exponent : Int}
    (h : sameNumber (n, 0) (mantissa, exponent) = true) :
    (if 0 ≤ exponent then mantissa * 2 ^ exponent.toNat
      else mantissa.tdiv (2 ^ (-exponent).toNat)) = n := by
  simp only [sameNumber, decide_eq_true_eq] at h
  by_cases hsign : 0 ≤ exponent
  · rw [min_eq_left hsign] at h
    rw [if_pos hsign]
    simpa using h.symm
  · have hlow : min 0 exponent = exponent := min_eq_right (by omega)
    rw [hlow] at h
    rw [if_neg hsign]
    have hmantissa : mantissa = n * 2 ^ (-exponent).toNat := by simpa using h.symm
    rw [hmantissa]
    exact Int.mul_tdiv_cancel _ (pow_ne_zero _ two_ne_zero)

/-- What equals a whole number is read as that number. -/
theorem same_int [PythonText] {n default : Int} {y : Json} {m : Whole}
    (h : same (.int n) y = true) (hm : asInt (some y) default = .ok m) : m.value = n := by
  have hvalue : sameScalar (.int n) y = true := by
    cases y with
    | arr items | obj fields => simp [same, isScalar] at h
    | null | bool b | int k | float bits | str s => simpa [same, isScalar] using h
  cases y with
  | null | str s => simp [sameScalar, numberParts] at hvalue
  | arr items | obj fields => simp [same, isScalar] at h
  | bool b =>
    obtain rfl := Except.ok.inj hm
    have heq : n = if b then 1 else 0 := by
      simpa [sameScalar, numberParts, sameNumber] using hvalue
    exact heq.symm
  | int k =>
    obtain rfl := Except.ok.inj hm
    have heq : n = k := by simpa [sameScalar, numberParts, sameNumber] using hvalue
    exact heq.symm
  | float bits =>
    obtain ⟨k, hk, rfl⟩ := map_eq_ok.1 hm
    rw [pyInt] at hk
    by_cases hfinite : finite bits = true
    · rw [if_pos hfinite] at hk
      have hpair : sameNumber (n, 0) (floatParts bits) = true := by
        simpa [sameScalar, numberParts, hfinite] using hvalue
      exact (Except.ok.inj hk).symm.trans (trunc_of_sameNumber hpair)
    · rw [if_neg hfinite] at hk
      split at hk <;> cases hk

end Equality

section Manager

/-- The limits of a manager, as its constructor bounds them. -/
structure TurnLimits where
  maxRecentTurns : Nat := 24
  maxRecentChars : Nat := 6000
  maxSingleTurnChars : Nat := 1200
  turns_bounded : 2 ≤ maxRecentTurns := by decide
  chars_bounded : 512 ≤ maxRecentChars := by decide
  single_bounded : 128 ≤ maxSingleTurnChars := by decide

structure Exchange where
  userText : Str
  assistantText : Str
  intent : Option Str
  route : Option Str
  skillId : Option Str
  resultStatus : Option Str := none
  /-- The readings of the clock, one for each turn. -/
  userTime : Instant
  assistantTime : Instant

structure RecentTurnUpdate where
  updated : Bool
  appendedCount : Nat
  prunedCount : Nat
  totalTurns : Nat
  totalChars : Nat
  deriving DecidableEq

/-- `_truncate_text`. -/
def truncateText (limits : TurnLimits) (value : Str) : Str :=
  (compact value).take limits.maxSingleTurnChars

/-- `_turns_chars`. -/
def turnsChars (turns : List RecentTurn) : Nat :=
  (turns.map fun t => t.text.length + t.normalizedText.length).sum

/-- `_prune_by_count`, with the number of turns that fall off. -/
def pruneByCount (limits : TurnLimits) (turns : List RecentTurn) : List RecentTurn × Nat :=
  (turns.drop (turns.length - limits.maxRecentTurns), turns.length - limits.maxRecentTurns)

/-- `_prune_by_chars`. -/
def pruneByChars (limits : TurnLimits) : List RecentTurn → List RecentTurn × Nat
  | t :: u :: rest =>
    if limits.maxRecentChars < turnsChars (t :: u :: rest) then
      ((pruneByChars limits (u :: rest)).1, (pruneByChars limits (u :: rest)).2 + 1)
    else (t :: u :: rest, 0)
  | turns => (turns, 0)

variable [PythonText]

/-- `_turn_counter`. -/
def turnCounter (annotations : Fields) : Except PyError Int :=
  (asInt (lookup annotations "recent_turn_counter") 0).map fun n => max 0 n.value

/-- One turn of an exchange, with its number. -/
def Exchange.turn (e : Exchange) (n : Int) (role : String) (content : Str) (references : Fields)
    (time : Instant) : Except PyError RecentTurn := do
  let number ← pyStr (.int n)
  .ok { turnId := some (text "turn-" ++ number), role, text := content
        normalizedText := PythonText.lower (compact content), intent := cleaned e.intent
        skillId := cleaned e.skillId, timestamp := some (isoUtc time), references }

omit [PythonText] in
def Exchange.userReferences (e : Exchange) : Fields :=
  [("route", orNull (cleaned e.route)), ("phase", .str "request")]

omit [PythonText] in
def Exchange.assistantReferences (e : Exchange) : Fields :=
  let status : Fields := (cleaned e.resultStatus).toList.map fun s => (text "status", .str s)
  ("route", orNull (cleaned e.route)) :: ("phase", .str "response") :: status

/-- The turn of one text of an exchange, if there is some text, behind the turns up to a number. -/
def Exchange.turnOf (e : Exchange) (counter : Int) (role : String) (content : Str)
    (references : Fields) (time : Instant) : Except PyError (List RecentTurn) :=
  if content = [] then .ok []
  else (e.turn (counter + 1) role content references time).map List.singleton

def Exchange.turns (limits : TurnLimits) (e : Exchange) (counter : Int) :
    Except PyError (List RecentTurn) := do
  let asked ← e.turnOf counter "user" (truncateText limits e.userText) e.userReferences e.userTime
  let answered ← e.turnOf (counter + asked.length) "assistant"
    (truncateText limits e.assistantText) e.assistantReferences e.assistantTime
  .ok (asked ++ answered)

/-- What is kept of some turns, and how many fall off. -/
def prune (limits : TurnLimits) (turns : List RecentTurn) : List RecentTurn × Nat :=
  ((pruneByChars limits (pruneByCount limits turns).1).1,
    (pruneByCount limits turns).2 + (pruneByChars limits (pruneByCount limits turns).1).2)

omit [PythonText] in
/-- A state behind whose turns some new ones are written. -/
def SessionContextState.record (s : SessionContextState) (limits : TurnLimits)
    (new : List RecentTurn) (counter : Int) : SessionContextState :=
  { s with
    recentTurns := (prune limits (s.recentTurns ++ new)).1
    contextAnnotations := putField s.contextAnnotations
      ("recent_turn_counter", .int (counter + new.length)) }

omit [PythonText] in
/-- What an exchange answers that recorded some turns. -/
def recordUpdate (updated : Bool) (appended : Nat) (kept : List RecentTurn × Nat) :
    RecentTurnUpdate :=
  ⟨updated, appended, kept.2, kept.1.length, turnsChars kept.1⟩

def recordExchange [PythonFloat] (limits : TurnLimits) (e : Exchange) :
    Transaction Fields RecentTurnUpdate := fun ref =>
  if truncateText limits e.userText = [] ∧ truncateText limits e.assistantText = [] then
    .ok (⟨false, 0, 0, 0, 0⟩, ref)
  else do
    let state ← deserializeSessionContext (.obj ref)
    let counter ← turnCounter state.contextAnnotations
    let appended ← e.turns limits counter
    let merged := writeState ref (state.record limits appended counter)
    let changed := !same (.obj merged) (.obj ref)
    .ok (recordUpdate changed appended.length (prune limits (state.recentTurns ++ appended)),
      if changed then merged else ref)

end Manager

end HardyAI.Context
