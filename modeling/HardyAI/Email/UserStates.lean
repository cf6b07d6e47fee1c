import HardyAI.Foundation.IsoOrder
import HardyAI.Foundation.Json
import HardyAI.Foundation.SqlLogic
import HardyAI.Foundation.Table

/-! What a user has done with the messages of a channel, and the messages that a list shows. -/

open Foundation Foundation.Json

namespace HardyAI.Email

section Rows

inductive ReviewState
  | new | presented | reviewed | dismissed | snoozed | actioned
  deriving DecidableEq

def ReviewState.value : ReviewState → Str
  | .new => "new"
  | .presented => "presented"
  | .reviewed => "reviewed"
  | .dismissed => "dismissed"
  | .snoozed => "snoozed"
  | .actioned => "actioned"

def ReviewState.ofText? (s : Str) : Option ReviewState :=
  [.new, .presented, .reviewed, .dismissed, .snoozed, .actioned].find? fun r => r.value = s

/-- A row of `email_user_state`. -/
structure UserState where
  userId : Str
  discordChannelId : Str
  gmailMessageId : Str
  reviewState : ReviewState
  disposition : Option Str
  snoozedUntil : Option Str
  lastPresentedAt : Option Str
  updatedAt : Str
  deriving DecidableEq

def UserState.key (r : UserState) : Str × Str × Str :=
  (r.userId, r.discordChannelId, r.gmailMessageId)

structure UserStateDb where
  /-- The keys of `email_messages`. -/
  messageIds : List Str
  userStates : Table UserState.key

structure UserStateRequest where
  userId : Str
  discordChannelId : Str
  gmailMessageId : Str
  reviewState : Str
  disposition : Option Str := none
  snoozedUntil : Option Str
  presented : Bool
  now : Str

def UserStateRequest.key (r : UserStateRequest) : Str × Str × Str :=
  (r.userId, r.discordChannelId, r.gmailMessageId)

def dispositions : List Str :=
  ["active", "needs_reply", "complete", "dismissed", "snoozed", "spam"]

/-- `DO UPDATE SET` of `set_user_state`, for the row that it could not insert. -/
def mergeState (excluded : UserState) : Table.Assignment UserState.key where
  apply old := { old with
    reviewState :=
      if excluded.reviewState = .presented ∧
          old.reviewState ∈ [.reviewed, .dismissed, .actioned] then old.reviewState
      else excluded.reviewState
    disposition := excluded.disposition.or old.disposition
    snoozedUntil := if excluded.reviewState = .presented then old.snoozedUntil
      else excluded.snoozedUntil
    lastPresentedAt := excluded.lastPresentedAt.or old.lastPresentedAt
    updatedAt := excluded.updatedAt }

variable [PythonText]

/-- `set_user_state`. -/
def setUserState (r : UserStateRequest) : Transaction UserStateDb (Option UserState) := fun db =>
  match ReviewState.ofText? r.reviewState with
  | none => .error (.valueError "Unsupported email review state.")
  | some reviewState => do
    let value := PythonText.casefold (strip (r.disposition.getD []))
    let disposition := if value = [] then none else some value
    require (disposition.all (dispositions.contains ·)) (.valueError "Unsupported email disposition.")
    let row : UserState :=
      { userId := r.userId, discordChannelId := r.discordChannelId
        gmailMessageId := r.gmailMessageId, reviewState, disposition
        snoozedUntil := r.snoozedUntil, lastPresentedAt := if r.presented then some r.now else none
        updatedAt := r.now }
    require ((db.userStates.find? r.key).isSome || db.messageIds.contains r.gmailMessageId)
      .integrityError
    let userStates := db.userStates.insertOrUpdate row (mergeState row)
    .ok (userStates.find? r.key, { db with userStates })

end Rows

section Visibility

inductive Visibility
  | active | unseen | needsReply | completed | spam | all
  deriving DecidableEq

/-- The condition on the state of the user, `us`, and on the category of the message. -/
def visibilityClause (v : Visibility) (now : Str) (us : Option UserState) (category : Option Str) :
    Sql.Truth :=
  let disposition := us.bind UserState.disposition
  let reviewState := us.map UserState.reviewState
  let snoozedUntil := us.bind UserState.snoozedUntil
  match v with
  | .active =>
    Sql.disj (Sql.disj (Sql.disj (Sql.isNull us)
        (Sql.compare disposition (· = text "needs_reply")))
        (Sql.compare reviewState (· ∈ [.new, .presented])))
      (Sql.conj (Sql.conj (Sql.compare reviewState (· = .snoozed)) (Sql.isNotNull snoozedUntil))
        (Sql.compare snoozedUntil (· ≤ now)))
  | .unseen => Sql.isNull us
  | .needsReply => Sql.compare disposition (· = text "needs_reply")
  | .completed =>
    Sql.disj (Sql.compare disposition (· = text "complete"))
      (Sql.conj (Sql.isNull disposition) (Sql.compare reviewState (· = .reviewed)))
  | .spam =>
    Sql.disj (Sql.compare disposition (· = text "spam")) (Sql.compare category (· = text "spam"))
  | .all => some true

/-- The list shows the message. -/
def Visible (v : Visibility) (now : Str) (us : Option UserState) (category : Option Str) : Prop :=
  Sql.holds (visibilityClause v now us category) = true

instance (v : Visibility) (now : Str) (us : Option UserState) (category : Option Str) :
    Decidable (Visible v now us category) := inferInstanceAs (Decidable (_ = true))

variable {v : Visibility} {now : Str} {us : Option UserState} {category : Option Str}

theorem visible_active : Visible .active now us category ↔
    us = none ∨ ∃ r, us = some r ∧ (r.disposition = some (text "needs_reply") ∨
      r.reviewState ∈ [.new, .presented] ∨
      r.reviewState = .snoozed ∧ ∃ t, r.snoozedUntil = some t ∧ t ≤ now) := by
  cases us with
  | none => simp [Visible, visibilityClause]
  | some r =>
    cases hdisposition : r.disposition <;> cases hsnoozed : r.snoozedUntil <;>
      simp [Visible, visibilityClause, hdisposition, hsnoozed, or_assoc]

end Visibility

section Presentation

/-- What a list records of a message that it shows. -/
def presentation (userId discordChannelId gmailMessageId : Str) (now : Instant) :
    UserStateRequest where
  userId := userId
  discordChannelId := discordChannelId
  gmailMessageId := gmailMessageId
  reviewState := "presented"
  snoozedUntil := none
  presented := true
  now := isoUtc now

/-- The row is snoozed to a later time, or to none, and nothing else shows it. -/
def HiddenUntilLater (now : Instant) (r : UserState) : Prop :=
  r.reviewState = .snoozed ∧ r.disposition ≠ some (text "needs_reply") ∧
    r.snoozedUntil.all (isoUtc now < ·) = true

/-- The row of the message that was shown. -/
def presentedRow (userId discordChannelId gmailMessageId : Str) (now : Instant) : UserState where
  userId := userId
  discordChannelId := discordChannelId
  gmailMessageId := gmailMessageId
  reviewState := .presented
  disposition := none
  snoozedUntil := none
  lastPresentedAt := some (isoUtc now)
  updatedAt := isoUtc now

/-- The sets that a presentation is to leave alone. -/
def lasting : List Visibility := [.active, .needsReply, .completed, .spam]

variable {userId discordChannelId gmailMessageId : Str} {now : Instant} {r : UserState}
  {category : Option Str} {v : Visibility} {later : Str}

theorem visible_presentedRow (hv : v ∈ lasting) :
    Visible v later (some (presentedRow userId discordChannelId gmailMessageId now)) category ↔
      Visible v later none category := by
  simp only [lasting, List.mem_cons, List.not_mem_nil, or_false] at hv
  rcases hv with rfl | rfl | rfl | rfl <;> simp [Visible, visibilityClause, presentedRow]

/-- Only the active messages depend on whether a row is snoozed. -/
theorem visible_mergeState (hv : v ∈ lasting) (hactive : v ≠ .active) :
    Visible v later
        (some ((mergeState (presentedRow userId discordChannelId gmailMessageId now)).apply r))
        category ↔ Visible v later (some r) category := by
  simp only [lasting, List.mem_cons, List.not_mem_nil, or_false] at hv
  rcases hv with rfl | rfl | rfl | rfl
  · exact absurd rfl hactive
  · simp [Visible, visibilityClause, presentedRow, mergeState]
  · cases hstate : r.reviewState <;>
      simp [Visible, visibilityClause, presentedRow, mergeState, hstate]
  · simp [Visible, visibilityClause, presentedRow, mergeState]

theorem visible_active_mergeState :
    Visible .active later
        (some ((mergeState (presentedRow userId discordChannelId gmailMessageId now)).apply r))
        category ↔
      r.disposition = some (text "needs_reply") ∨ r.reviewState ∈ [.new, .presented, .snoozed] := by
  rw [visible_active]
  cases hstate : r.reviewState <;> simp [presentedRow, mergeState, hstate]

theorem visible_active_row {now : Str} : Visible .active now (some r) category ↔
    r.disposition = some (text "needs_reply") ∨ r.reviewState ∈ [.new, .presented] ∨
      r.reviewState = .snoozed ∧ ∃ t, r.snoozedUntil = some t ∧ t ≤ now := by
  simp [visible_active]

/-- A snooze that has run out by a presentation has run out ever after. -/
theorem due_later (hhidden : ¬HiddenUntilLater now r) (hsnoozed : r.reviewState = .snoozed)
    (hreply : r.disposition ≠ some (text "needs_reply")) {t : Instant} (hlater : now ≤ t) :
    ∃ until_, r.snoozedUntil = some until_ ∧ until_ ≤ isoUtc t := by
  cases huntil : r.snoozedUntil with
  | none => exact absurd ⟨hsnoozed, hreply, by rw [huntil]; rfl⟩ hhidden
  | some until_ =>
    have hdue : until_ ≤ isoUtc now := by
      by_contra hnot
      exact hhidden ⟨hsnoozed, hreply, by simpa [huntil] using hnot⟩
    exact ⟨until_, rfl, hdue.trans (isoUtc_strictMono.monotone hlater)⟩

end Presentation

section Recording

variable [PythonText]

def afterPresentation (db : UserStateDb) (userId discordChannelId gmailMessageId : Str)
    (now : Instant) : UserStateDb :=
  (setUserState (presentation userId discordChannelId gmailMessageId now)).commit db

variable {db : UserStateDb} {userId discordChannelId gmailMessageId : Str} {now : Instant}

theorem setUserState_presentation :
    setUserState (presentation userId discordChannelId gmailMessageId now) db =
      (require ((db.userStates.find? (userId, discordChannelId, gmailMessageId)).isSome ||
          db.messageIds.contains gmailMessageId) .integrityError).bind fun _ =>
        let row := presentedRow userId discordChannelId gmailMessageId now
        let userStates := db.userStates.insertOrUpdate row (mergeState row)
        .ok (userStates.find? row.key, { db with userStates }) := by
  have hfold : PythonText.casefold (strip []) = [] := PythonText.casefold_ascii [] rfl
  simp only [setUserState, presentation, Option.getD_none, hfold]
  rfl

theorem find?_afterPresentation_other {k : Str × Str × Str}
    (hother : k ≠ (userId, discordChannelId, gmailMessageId)) :
    (afterPresentation db userId discordChannelId gmailMessageId now).userStates.find? k =
      db.userStates.find? k := by
  unfold afterPresentation Transaction.commit
  rw [setUserState_presentation]
  cases hrequire : require _ _ with
  | error e => rfl
  | ok u =>
    simp only [Except.bind, Table.find?_insertOrUpdate]
    exact if_neg hother

theorem find?_afterPresentation_row {r : UserState}
    (hr : db.userStates.find? (userId, discordChannelId, gmailMessageId) = some r) :
    (afterPresentation db userId discordChannelId gmailMessageId now).userStates.find?
        (userId, discordChannelId, gmailMessageId) =
      some ((mergeState (presentedRow userId discordChannelId gmailMessageId now)).apply r) := by
  unfold afterPresentation Transaction.commit
  rw [setUserState_presentation, hr]
  simp [require, Except.bind, Table.find?_insertOrUpdate, presentedRow, UserState.key, hr]

/-- A message without a row gets one, or is not in the mailbox. -/
theorem find?_afterPresentation_new
    (hnew : db.userStates.find? (userId, discordChannelId, gmailMessageId) = none) :
    (afterPresentation db userId discordChannelId gmailMessageId now).userStates.find?
        (userId, discordChannelId, gmailMessageId) ∈
      [none, some (presentedRow userId discordChannelId gmailMessageId now)] := by
  unfold afterPresentation Transaction.commit
  rw [setUserState_presentation, hnew]
  cases hmessage : db.messageIds.contains gmailMessageId with
  | false => simp [require, Except.bind, hnew]
  | true =>
    simp [require, Except.bind, Table.find?_insertOrUpdate, presentedRow, UserState.key, hnew]

/-- Recording that a message was shown changes neither the messages of this list nor those of a
later one exactly where its row was not snoozed to a later time. -/
theorem presentation_frame (db : UserStateDb) (userId discordChannelId gmailMessageId : Str)
    (now : Instant) :
    (∀ v ∈ lasting, ∀ later, now ≤ later → ∀ k category,
      (Visible v (isoUtc later)
          ((afterPresentation db userId discordChannelId gmailMessageId now).userStates.find? k)
          category ↔
        Visible v (isoUtc later) (db.userStates.find? k) category)) ↔
      ¬∃ r, db.userStates.find? (userId, discordChannelId, gmailMessageId) = some r ∧
        HiddenUntilLater now r := by
  constructor
  · rintro hframe ⟨r, hr, hsnoozed, hreply, hlater⟩
    have hactive := hframe .active (by simp [lasting]) now le_rfl
      (userId, discordChannelId, gmailMessageId) none
    rw [find?_afterPresentation_row hr, hr, visible_active_mergeState, visible_active_row] at hactive
    have hshown := hactive.1 (.inr (by simp [hsnoozed]))
    simp only [hreply, hsnoozed, List.mem_cons, reduceCtorEq, List.not_mem_nil, or_self,
      false_or, true_and] at hshown
    obtain ⟨t, ht, hdue⟩ := hshown
    simp only [ht, Option.all_some, decide_eq_true_eq] at hlater
    exact absurd hlater (not_lt.2 hdue)
  · intro hhidden v hv later hlater k category
    by_cases hk : k = (userId, discordChannelId, gmailMessageId)
    · subst hk
      cases hr : db.userStates.find? (userId, discordChannelId, gmailMessageId) with
      | none =>
        have hnew : (afterPresentation db userId discordChannelId gmailMessageId
            now).userStates.find? (userId, discordChannelId, gmailMessageId) ∈
              [none, some (presentedRow userId discordChannelId gmailMessageId now)] :=
          find?_afterPresentation_new hr
        simp only [List.mem_cons, List.not_mem_nil, or_false] at hnew
        rcases hnew with hnew | hnew <;> rw [hnew]
        exact visible_presentedRow hv
      | some r =>
        rw [find?_afterPresentation_row hr]
        by_cases hactive : v = .active
        · subst hactive
          rw [visible_active_mergeState, visible_active_row]
          have hnot : ¬HiddenUntilLater now r := fun h => hhidden ⟨r, hr, h⟩
          by_cases hreply : r.disposition = some (text "needs_reply")
          · simp [hreply]
          · cases hstate : r.reviewState <;> simp [hreply]
            exact due_later hnot hstate hreply hlater
        · exact visible_mergeState hv hactive
    · rw [find?_afterPresentation_other hk]

/-- A message that was snoozed at noon until noon of the next day. -/
def snoozedRow : UserState where
  userId := "u"
  discordChannelId := "c"
  gmailMessageId := "m"
  reviewState := .snoozed
  disposition := some "snoozed"
  snoozedUntil := some "2024-01-02T12:00:00+00:00"
  lastPresentedAt := none
  updatedAt := "2024-01-01T12:00:00+00:00"

def snoozedDb : UserStateDb := ⟨["m"], ⟨[snoozedRow], List.nodup_singleton _⟩⟩

/-- One in the afternoon of the first of the two days. -/
def afternoon : Instant := ⟨738885 * 86400000000 + 13 * 3600000000, by decide⟩

omit [PythonText] in
/-- A list of all messages shows it in the afternoon, and brings it back a day too early. -/
theorem snoozed_message_returns :
    isoUtc afternoon < text "2024-01-02T12:00:00+00:00" ∧
    Visible .all (isoUtc afternoon) (snoozedDb.userStates.find? snoozedRow.key) none ∧
    ¬Visible .active (isoUtc afternoon) (snoozedDb.userStates.find? snoozedRow.key) none ∧
    Visible .active (isoUtc afternoon)
      ((@afterPresentation asciiText snoozedDb "u" "c" "m" afternoon).userStates.find?
        snoozedRow.key) none := by
  decide +kernel

end Recording

end HardyAI.Email
