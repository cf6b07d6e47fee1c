import HardyAI.Foundation.IsoOrder
import HardyAI.Foundation.Text
import HardyAI.Foundation.ZoneRules

/-! The intervals of a local day and of the last local days, as instants of UTC. -/

open Foundation

namespace HardyAI.Email

section Intervals

/-- The seconds of the years that a date can have. -/
def calendarSeconds : Int := 3652059 * 86400

/-- A time of UTC or of the wall, where `datetime` can hold it. -/
def inCalendar (second : Int) : Except PyError Int :=
  if 0 ≤ second ∧ second < calendarSeconds then .ok second else .error .overflowError

/-- `astimezone(UTC)`. -/
def toUtc (z : ZoneRules) (t : LocalSecond) : Except PyError Int :=
  inCalendar (t.wall - z.utcoffset t)

/-- `astimezone(zone)`. -/
def toZone (z : ZoneRules) (utc : Int) : Except PyError LocalSecond := do
  let _ ← inCalendar (z.localTime utc).wall
  .ok (z.localTime utc)

/-- The zones that are installed. -/
abbrev Zones := Str → Option ZoneRules

/-- `_zone`. -/
def zoneOf (zones : Zones) (timezoneName : Str) : Except PyError ZoneRules :=
  match zones (strip timezoneName) with
  | some z => .ok z
  | none => .error (.valueError "email_query_timezone_invalid")

/-- The instants of the earlier candidates have been computed before. -/
def addCandidate (z : ZoneRules) (value : Int) (candidates : List LocalSecond) (fold : Bool) :
    Except PyError (List LocalSecond) := do
  let candidate : LocalSecond := ⟨value, fold⟩
  let utc ← toUtc z candidate
  let roundTrip ← toZone z utc
  .ok (if roundTrip = candidate ∧ ∀ c ∈ candidates, utc ≠ c.wall - z.utcoffset c then
      candidates ++ [candidate]
    else candidates)

def localCandidates (z : ZoneRules) (value : Int) : Except PyError (List LocalSecond) := do
  let candidates ← addCandidate z value [] false
  addCandidate z value candidates true

def datetimeNonexistent : PyError := .valueError "email_query_local_datetime_nonexistent"

def datetimeAmbiguous : PyError := .valueError "email_query_local_datetime_ambiguous"

def foldInvalid : PyError := .valueError "email_query_local_datetime_fold_invalid"

def foldNumber (t : LocalSecond) : Int := if t.fold then 1 else 0

/-- The candidate that a fold asks for, or the only one. -/
def chooseCandidate (candidates : List LocalSecond) (fold : Option Int) :
    Except PyError LocalSecond :=
  match candidates, fold with
  | [], _ => .error datetimeNonexistent
  | [c], none => .ok c
  | _, none => .error datetimeAmbiguous
  | cs, some f =>
    match cs.find? fun c => foldNumber c = f with
    | some c => .ok c
    | none => .error foldInvalid

/-- `strict_local_datetime` of a time without a zone. -/
def strictLocalDatetime (zones : Zones) (value : Int) (timezoneName : Str) (fold : Option Int) :
    Except PyError LocalSecond := do
  require (fold.all fun f => f = 0 || f = 1) foldInvalid
  let z ← zoneOf zones timezoneName
  let candidates ← localCandidates z value
  chooseCandidate candidates fold

/-- `exact_local_date_interval`. -/
def exactLocalDateInterval (zones : Zones) (localDate : Fin 3652059) (timezoneName : Str) :
    Except PyError (Int × Int) := do
  let start ← strictLocalDatetime zones (localDate.val * 86400) timezoneName none
  let midnight ← inCalendar ((localDate.val + 1) * 86400)
  let stop ← strictLocalDatetime zones midnight timezoneName none
  let z ← zoneOf zones timezoneName
  let startUtc ← toUtc z start
  let stopUtc ← toUtc z stop
  .ok (startUtc, stopUtc)

/-- `rolling_days_interval`. -/
def rollingDaysInterval (zones : Zones) (days : Int) (now : Instant) (timezoneName : Str) :
    Except PyError (Int × Int) := do
  require (1 ≤ days && days ≤ 3660) (.valueError "email_query_rolling_days_invalid")
  let z ← zoneOf zones timezoneName
  let localEnd ← toZone z now.second
  let startWall ← inCalendar (localEnd.wall - 86400 * days)
  let localStart ← strictLocalDatetime zones startWall timezoneName (some (foldNumber localEnd))
  let startUtc ← toUtc z localStart
  let stopUtc ← toUtc z localEnd
  .ok (startUtc, stopUtc)

end Intervals

section Candidates

variable {z : ZoneRules} {value u : Int} {fold : Bool}

/-- Some instant has this local time. -/
def Occurs (z : ZoneRules) (t : LocalSecond) : Prop := ∃ u, z.localTime u = t

/-- At least two days from the ends of the calendar. -/
def Inside (value : Int) : Prop := 172800 ≤ value ∧ value < calendarSeconds - 172800

theorem inCalendar_eq_ok {s s' : Int} :
    inCalendar s = .ok s' ↔ (0 ≤ s ∧ s < calendarSeconds) ∧ s = s' := by
  unfold inCalendar
  split <;> simp_all

theorem inCalendar_error {s : Int} {e : PyError} (h : inCalendar s = .error e) :
    e = .overflowError ∧ ¬(0 ≤ s ∧ s < calendarSeconds) := by
  unfold inCalendar at h
  split at h
  · cases h
  · next hout =>
    cases h
    exact ⟨rfl, hout⟩

/-- The instant of a local time that is shown. -/
theorem instant_of_occurs {t : LocalSecond} (h : z.localTime u = t) :
    t.wall - z.utcoffset t = u := by
  rw [← h]
  exact z.wall_sub_utcoffset u

theorem occurs_iff {t : LocalSecond} :
    Occurs z t ↔ z.localTime (t.wall - z.utcoffset t) = t := by
  constructor
  · rintro ⟨u, h⟩
    rw [instant_of_occurs h, h]
  · exact fun h => ⟨_, h⟩

instance (t : LocalSecond) : Decidable (Occurs z t) := decidable_of_iff _ occurs_iff.symm

/-- Whether a wall time is read at all is decided by the time without a fold. -/
theorem occurs_first (h : (z.localTime u).wall = value) : Occurs z ⟨value, false⟩ := by
  cases hfold : (z.localTime u).fold with
  | false => exact ⟨u, by rw [← h, ← hfold]⟩
  | true =>
    obtain ⟨e, -, he⟩ := ZoneRules.exists_first hfold
    exact ⟨e, by rw [he, h]⟩

theorem toUtc_eq_ok {t : LocalSecond} (h : toUtc z t = .ok u) : u = t.wall - z.utcoffset t :=
  (inCalendar_eq_ok.1 h).2.symm

theorem toZone_eq_ok {t : LocalSecond} (h : toZone z u = .ok t) : z.localTime u = t := by
  obtain ⟨_, -, h⟩ := bind_eq_ok.1 h
  exact Except.ok.inj h

variable {cs cs' : List LocalSecond} {e : PyError}

/-- A candidate is added if some instant has its local time. -/
theorem addCandidate_spec (h : addCandidate z value cs fold = .ok cs')
    (hcs : ∀ c ∈ cs, Occurs z c ∧ c.fold ≠ fold) :
    cs' = if Occurs z ⟨value, fold⟩ then cs ++ [⟨value, fold⟩] else cs := by
  simp only [addCandidate, bind_eq_ok] at h
  obtain ⟨utc, hutc, roundTrip, hround, h⟩ := h
  cases h
  have hinstant : utc = value - z.utcoffset ⟨value, fold⟩ := toUtc_eq_ok hutc
  have hlocal : z.localTime utc = roundTrip := toZone_eq_ok hround
  have hiff : (roundTrip = ⟨value, fold⟩ ∧ ∀ c ∈ cs, utc ≠ c.wall - z.utcoffset c) ↔
      Occurs z ⟨value, fold⟩ := by
    rw [occurs_iff, ← hinstant, hlocal]
    refine and_iff_left_of_imp fun hsame c hc heq => ?_
    have hother : z.localTime utc = c := heq ▸ occurs_iff.1 (hcs c hc).1
    rw [hlocal, hsame] at hother
    exact (hcs c hc).2 (hother ▸ rfl)
  simp only [hiff]

theorem localCandidates_spec (h : localCandidates z value = .ok cs) :
    cs = ([⟨value, false⟩, ⟨value, true⟩] : List LocalSecond).filter fun t => Occurs z t := by
  obtain ⟨first, hfirst, h⟩ := bind_eq_ok.1 h
  have hone := addCandidate_spec hfirst fun c hc => absurd hc List.not_mem_nil
  have hmem : ∀ c ∈ first, Occurs z c ∧ c.fold ≠ true := by
    intro c hc
    rw [hone] at hc
    split at hc
    · next hoccurs =>
      obtain rfl := List.mem_singleton.1 hc
      exact ⟨hoccurs, Bool.false_ne_true⟩
    · exact absurd hc List.not_mem_nil
  rw [addCandidate_spec h hmem, hone]
  by_cases hfalse : Occurs z ⟨value, false⟩ <;> by_cases htrue : Occurs z ⟨value, true⟩ <;>
    simp [hfalse, htrue]

/-- Only the ends of the calendar stop the search for candidates. -/
theorem addCandidate_error (h : addCandidate z value cs fold = .error e) :
    e = .overflowError ∧ ¬Inside value := by
  have hoffset := z.utcoffset_bounded ⟨value, fold⟩
  unfold addCandidate at h
  rcases bind_eq_error.1 h with h | ⟨utc, hutc, h⟩
  · obtain ⟨he, hout⟩ : e = .overflowError ∧ ¬(0 ≤ value - z.utcoffset ⟨value, fold⟩ ∧
        value - z.utcoffset ⟨value, fold⟩ < calendarSeconds) := inCalendar_error h
    refine ⟨he, fun hinside => hout ?_⟩
    unfold Inside at hinside
    omega
  · have hinstant : utc = value - z.utcoffset ⟨value, fold⟩ := toUtc_eq_ok hutc
    have hwall := z.wall_bounded utc
    rcases bind_eq_error.1 h with h | ⟨roundTrip, -, h⟩
    · rcases bind_eq_error.1 h with h | ⟨_, -, h⟩
      · obtain ⟨he, hout⟩ := inCalendar_error h
        refine ⟨he, fun hinside => hout ?_⟩
        unfold Inside at hinside
        omega
      · cases h
    · cases h

theorem localCandidates_error (h : localCandidates z value = .error e) :
    e = .overflowError ∧ ¬Inside value := by
  obtain h | ⟨cs, -, h⟩ := bind_eq_error.1 h
  · exact addCandidate_error h
  · exact addCandidate_error h

end Candidates

section Answers

variable {zones : Zones} {timezoneName : Str} {z : ZoneRules} {value : Int} {t : LocalSecond}
  {e : PyError}

/-- No instant has the wall time. -/
def Skipped (z : ZoneRules) (value : Int) : Prop := ∀ u, (z.localTime u).wall ≠ value

/-- Two instants have the wall time. -/
def Repeated (z : ZoneRules) (value : Int) : Prop :=
  ∃ u v, u ≠ v ∧ (z.localTime u).wall = value ∧ (z.localTime v).wall = value

/-- The instant `u` alone has the wall time. -/
def ReadOnce (z : ZoneRules) (value u : Int) : Prop := ∀ v, (z.localTime v).wall = value ↔ v = u

theorem strictLocalDatetime_eq (hzone : zones (strip timezoneName) = some z) {fold : Option Int}
    (hfold : ∀ f ∈ fold, f = 0 ∨ f = 1) : strictLocalDatetime zones value timezoneName fold =
      (localCandidates z value).bind fun cs => chooseCandidate cs fold := by
  have hvalid : (fold.all fun f => f = 0 || f = 1) = true := by
    cases fold with
    | none => rfl
    | some f => simpa using hfold f rfl
  rw [strictLocalDatetime, hvalid, zoneOf, hzone]
  rfl

/-- Of the two candidates, the one with a fold never stands alone. -/
theorem occurs_false_of_true (h : Occurs z ⟨value, true⟩) : Occurs z ⟨value, false⟩ := by
  obtain ⟨u, hu⟩ := h
  exact occurs_first (by rw [hu])

theorem skipped_of_not_occurs (h : ¬Occurs z ⟨value, false⟩) : Skipped z value :=
  fun _ hwall => h (occurs_first hwall)

theorem repeated_of_occurs (h : Occurs z ⟨value, true⟩) : Repeated z value := by
  obtain ⟨u, hu⟩ := h
  obtain ⟨v, hv⟩ := occurs_false_of_true ⟨u, hu⟩
  refine ⟨u, v, fun heq => ?_, by rw [hu], by rw [hv]⟩
  rw [heq, hv] at hu
  cases hu

theorem readOnce_of_occurs (hfirst : Occurs z ⟨value, false⟩) (hagain : ¬Occurs z ⟨value, true⟩) :
    ReadOnce z value (value - z.utcoffset ⟨value, false⟩) := by
  intro v
  constructor
  · intro hwall
    have hfold : (z.localTime v).fold = false := by
      by_contra hfold
      rw [Bool.not_eq_false] at hfold
      exact hagain ⟨v, by rw [← hwall, ← hfold]⟩
    exact (instant_of_occurs (t := ⟨value, false⟩) (by rw [← hwall, ← hfold])).symm
  · rintro rfl
    rw [occurs_iff.1 hfirst]

/-- A wall time without a fold asked for gives the only instant that has it. -/
theorem strict_once (hzone : zones (strip timezoneName) = some z)
    (h : strictLocalDatetime zones value timezoneName none = .ok t) :
    t = ⟨value, false⟩ ∧ Occurs z t ∧ ReadOnce z value (t.wall - z.utcoffset t) := by
  rw [strictLocalDatetime_eq hzone (fun f hf => by cases hf)] at h
  obtain ⟨cs, hcs, h⟩ := bind_eq_ok.1 h
  rw [localCandidates_spec hcs] at h
  by_cases htrue : Occurs z ⟨value, true⟩
  · simp [htrue, occurs_false_of_true htrue, chooseCandidate] at h
  · by_cases hfalse : Occurs z ⟨value, false⟩
    · simp [hfalse, htrue, chooseCandidate] at h
      exact ⟨h.symm, h ▸ hfalse, h ▸ readOnce_of_occurs hfalse htrue⟩
    · simp [hfalse, htrue, chooseCandidate] at h

/-- Why a wall time is refused. -/
def Refused (z : ZoneRules) (value : Int) (e : PyError) : Prop :=
  e = .overflowError ∧ ¬Inside value ∨ e = datetimeNonexistent ∧ Skipped z value

theorem strict_refused (hzone : zones (strip timezoneName) = some z)
    (h : strictLocalDatetime zones value timezoneName none = .error e) :
    Refused z value e ∨ e = datetimeAmbiguous ∧ Repeated z value := by
  rw [strictLocalDatetime_eq hzone (fun f hf => by cases hf)] at h
  obtain h | ⟨cs, hcs, h⟩ := bind_eq_error.1 h
  · exact .inl (.inl (localCandidates_error h))
  · rw [localCandidates_spec hcs] at h
    by_cases htrue : Occurs z ⟨value, true⟩
    · simp [htrue, occurs_false_of_true htrue, chooseCandidate] at h
      exact .inr ⟨h.symm, repeated_of_occurs htrue⟩
    · by_cases hfalse : Occurs z ⟨value, false⟩
      · simp [hfalse, htrue, chooseCandidate] at h
      · simp [hfalse, htrue, chooseCandidate] at h
        exact .inl (.inr ⟨h.symm, skipped_of_not_occurs hfalse⟩)

/-- A wall time asked for without a fold gives the first instant that has it. -/
theorem strict_first (hzone : zones (strip timezoneName) = some z)
    (h : strictLocalDatetime zones value timezoneName (some 0) = .ok t) :
    t = ⟨value, false⟩ ∧ Occurs z t := by
  rw [strictLocalDatetime_eq hzone (fun f hf => .inl (Option.some.inj hf).symm)] at h
  obtain ⟨cs, hcs, h⟩ := bind_eq_ok.1 h
  rw [localCandidates_spec hcs] at h
  by_cases hfalse : Occurs z ⟨value, false⟩
  · by_cases htrue : Occurs z ⟨value, true⟩ <;>
      simp [hfalse, htrue, chooseCandidate, foldNumber] at h <;> exact ⟨h.symm, h ▸ hfalse⟩
  · have htrue := mt occurs_false_of_true hfalse
    simp [hfalse, htrue, chooseCandidate] at h

theorem strict_first_refused (hzone : zones (strip timezoneName) = some z)
    (h : strictLocalDatetime zones value timezoneName (some 0) = .error e) : Refused z value e := by
  rw [strictLocalDatetime_eq hzone (fun f hf => .inl (Option.some.inj hf).symm)] at h
  obtain h | ⟨cs, hcs, h⟩ := bind_eq_error.1 h
  · exact .inl (localCandidates_error h)
  · rw [localCandidates_spec hcs] at h
    by_cases hfalse : Occurs z ⟨value, false⟩
    · by_cases htrue : Occurs z ⟨value, true⟩ <;>
        simp [hfalse, htrue, chooseCandidate, foldNumber] at h
    · have htrue := mt occurs_false_of_true hfalse
      simp [hfalse, htrue, chooseCandidate] at h
      exact .inr ⟨h.symm, skipped_of_not_occurs hfalse⟩

/-- The wall time so many days before the one of `now`. -/
def wallBefore (z : ZoneRules) (now : Instant) (days : Int) : Int :=
  (z.localTime now.second).wall - 86400 * days

/-- What `rolling_days_interval` may answer at a wall time that is not a repeated one. -/
def RollingAnswer (z : ZoneRules) (now : Instant) (days : Int) :
    Except PyError (Int × Int) → Prop
  | .ok (start, stop) => stop = now.second ∧ start < stop ∧
      z.localTime start = ⟨wallBefore z now days, false⟩
  | .error e => e = .overflowError ∧
      ¬(Inside (wallBefore z now days) ∧ Inside (z.localTime now.second).wall) ∨
      e = datetimeNonexistent ∧ Skipped z (wallBefore z now days)

/-- What `exact_local_date_interval` may answer. -/
def DateAnswer (z : ZoneRules) (midnight next : Int) : Except PyError (Int × Int) → Prop
  | .ok (start, stop) => start < stop ∧ ReadOnce z midnight start ∧ ReadOnce z next stop
  | .error e => e = .overflowError ∧ ¬(Inside midnight ∧ Inside next) ∨
      e = datetimeNonexistent ∧ (Skipped z midnight ∨ Skipped z next) ∨
      e = datetimeAmbiguous ∧ (Repeated z midnight ∨ Repeated z next)

/-- Of two wall times that are read without a fold, the earlier one is read earlier. -/
theorem lt_of_wall_lt {u v : Int} (h : (z.localTime u).wall < (z.localTime v).wall)
    (hfold : (z.localTime u).fold = false) : u < v := by
  by_contra hnot
  rcases Int.lt_or_eq_of_le (Int.not_lt.1 hnot) with hlt | heq
  · have hwall := ZoneRules.wall_lt hfold hlt
    omega
  · rw [heq] at h
    omega

theorem zoneOf_eq (hzone : zones (strip timezoneName) = some z) :
    zoneOf zones timezoneName = .ok z := by
  rw [zoneOf, hzone]

theorem inCalendar_refused {s : Int} (h : inCalendar s = .error e) :
    e = .overflowError ∧ ¬Inside s := by
  obtain ⟨he, hout⟩ := inCalendar_error h
  refine ⟨he, fun hinside => hout ?_⟩
  unfold Inside at hinside
  omega

theorem toUtc_refused (h : toUtc z t = .error e) : e = .overflowError ∧ ¬Inside t.wall := by
  obtain ⟨he, hout⟩ := inCalendar_error h
  have hoffset := z.utcoffset_bounded t
  refine ⟨he, fun hinside => hout ?_⟩
  unfold Inside at hinside
  omega

theorem toZone_refused {u : Int} (h : toZone z u = .error e) :
    e = .overflowError ∧ ¬Inside (z.localTime u).wall := by
  obtain h | ⟨_, -, h⟩ := bind_eq_error.1 h
  · exact inCalendar_refused h
  · cases h

theorem rolling_answer (hzone : zones (strip timezoneName) = some z) {now : Instant} {days : Int}
    (hdays : 1 ≤ days ∧ days ≤ 3660) (hfold : (z.localTime now.second).fold = false) :
    RollingAnswer z now days (rollingDaysInterval zones days now timezoneName) := by
  have hvalid : (1 ≤ days && days ≤ 3660 : Bool) = true := by
    simpa using hdays
  have hnumber : foldNumber (z.localTime now.second) = 0 := by rw [foldNumber, hfold]; rfl
  cases hanswer : rollingDaysInterval zones days now timezoneName with
  | ok interval =>
    simp only [rollingDaysInterval, bind_eq_ok, zoneOf_eq hzone, Except.ok.injEq] at hanswer
    obtain ⟨_, -, _, rfl, localEnd, hend, startWall, hstart, localStart, hstrict, startUtc,
      hstartUtc, stopUtc, hstopUtc, rfl⟩ := hanswer
    obtain rfl := toZone_eq_ok hend
    obtain ⟨-, rfl⟩ := inCalendar_eq_ok.1 hstart
    rw [hnumber] at hstrict
    obtain ⟨rfl, hoccurs⟩ := strict_first hzone hstrict
    obtain rfl := toUtc_eq_ok hstartUtc
    obtain rfl := toUtc_eq_ok hstopUtc
    have hread := occurs_iff.1 hoccurs
    rw [z.wall_sub_utcoffset]
    refine ⟨rfl, lt_of_wall_lt ?_ (by rw [hread]), hread⟩
    rw [hread]
    show _ - 86400 * days < _
    omega
  | error e =>
    have hend {x : PyError} (h : x = .overflowError ∧ ¬Inside (z.localTime now.second).wall) :
        RollingAnswer z now days (.error x) := .inl ⟨h.1, fun hinside => h.2 hinside.2⟩
    have hstart {x : PyError} (h : x = .overflowError ∧ ¬Inside (wallBefore z now days)) :
        RollingAnswer z now days (.error x) := .inl ⟨h.1, fun hinside => h.2 hinside.1⟩
    simp only [rollingDaysInterval, hvalid, zoneOf_eq hzone] at hanswer
    obtain h | ⟨_, -, hanswer⟩ := bind_eq_error.1 hanswer
    · cases h
    obtain h | ⟨_, hz, hanswer⟩ := bind_eq_error.1 hanswer
    · cases h
    cases hz
    obtain h | ⟨localEnd, hlocal, hanswer⟩ := bind_eq_error.1 hanswer
    · exact hend (toZone_refused h)
    obtain rfl := toZone_eq_ok hlocal
    obtain h | ⟨startWall, hwall, hanswer⟩ := bind_eq_error.1 hanswer
    · exact hstart (inCalendar_refused h)
    obtain ⟨-, rfl⟩ := inCalendar_eq_ok.1 hwall
    rw [hnumber] at hanswer
    obtain h | ⟨localStart, hstrict, hanswer⟩ := bind_eq_error.1 hanswer
    · exact (strict_first_refused hzone h).elim hstart .inr
    obtain ⟨rfl, -⟩ := strict_first hzone hstrict
    obtain h | ⟨startUtc, -, hanswer⟩ := bind_eq_error.1 hanswer
    · exact hstart (toUtc_refused h)
    obtain h | ⟨stopUtc, -, hanswer⟩ := bind_eq_error.1 hanswer
    · exact hend (toUtc_refused h)
    cases hanswer

theorem date_answer (hzone : zones (strip timezoneName) = some z) (localDate : Fin 3652059) :
    DateAnswer z (localDate.val * 86400) ((localDate.val + 1) * 86400)
      (exactLocalDateInterval zones localDate timezoneName) := by
  cases hanswer : exactLocalDateInterval zones localDate timezoneName with
  | ok interval =>
    simp only [exactLocalDateInterval, bind_eq_ok, zoneOf_eq hzone, Except.ok.injEq] at hanswer
    obtain ⟨start, hstart, midnight, hmidnight, stop, hstop, _, rfl, startUtc, hstartUtc, stopUtc,
      hstopUtc, rfl⟩ := hanswer
    obtain ⟨-, rfl⟩ := inCalendar_eq_ok.1 hmidnight
    obtain ⟨rfl, hstartOccurs, hfirst⟩ := strict_once hzone hstart
    obtain ⟨rfl, hstopOccurs, hnext⟩ := strict_once hzone hstop
    obtain rfl := toUtc_eq_ok hstartUtc
    obtain rfl := toUtc_eq_ok hstopUtc
    have hstartRead := occurs_iff.1 hstartOccurs
    have hstopRead := occurs_iff.1 hstopOccurs
    refine ⟨lt_of_wall_lt ?_ (by rw [hstartRead]), hfirst, hnext⟩
    rw [hstartRead, hstopRead]
    show (localDate.val : Int) * 86400 < (localDate.val + 1) * 86400
    omega
  | error e =>
    have hfirst {x : PyError} (h : x = .overflowError ∧ ¬Inside (localDate.val * 86400)) :
        DateAnswer z (localDate.val * 86400) ((localDate.val + 1) * 86400) (.error x) :=
      .inl ⟨h.1, fun hinside => h.2 hinside.1⟩
    have hnext {x : PyError} (h : x = .overflowError ∧ ¬Inside ((localDate.val + 1) * 86400)) :
        DateAnswer z (localDate.val * 86400) ((localDate.val + 1) * 86400) (.error x) :=
      .inl ⟨h.1, fun hinside => h.2 hinside.2⟩
    simp only [exactLocalDateInterval, zoneOf_eq hzone] at hanswer
    obtain h | ⟨start, hstart, hanswer⟩ := bind_eq_error.1 hanswer
    · obtain (hend | hskipped) | hrepeated := strict_refused hzone h
      · exact hfirst hend
      · exact .inr (.inl ⟨hskipped.1, .inl hskipped.2⟩)
      · exact .inr (.inr ⟨hrepeated.1, .inl hrepeated.2⟩)
    obtain ⟨rfl, -⟩ := strict_once hzone hstart
    obtain h | ⟨midnight, hmidnight, hanswer⟩ := bind_eq_error.1 hanswer
    · exact hnext (inCalendar_refused h)
    obtain ⟨-, rfl⟩ := inCalendar_eq_ok.1 hmidnight
    obtain h | ⟨stop, hstop, hanswer⟩ := bind_eq_error.1 hanswer
    · obtain (hend | hskipped) | hrepeated := strict_refused hzone h
      · exact hnext hend
      · exact .inr (.inl ⟨hskipped.1, .inr hskipped.2⟩)
      · exact .inr (.inr ⟨hrepeated.1, .inr hrepeated.2⟩)
    obtain ⟨rfl, -⟩ := strict_once hzone hstop
    obtain h | ⟨_, hz, hanswer⟩ := bind_eq_error.1 hanswer
    · cases h
    cases hz
    obtain h | ⟨startUtc, -, hanswer⟩ := bind_eq_error.1 hanswer
    · exact hfirst (toUtc_refused h)
    obtain h | ⟨stopUtc, -, hanswer⟩ := bind_eq_error.1 hanswer
    · exact hnext (toUtc_refused h)
    cases hanswer

theorem ReadOnce.unique {u v : Int} (h : ReadOnce z value u) (h' : ReadOnce z value v) : u = v :=
  (h' u).1 ((h u).2 rfl)

theorem local_intervals (hzone : zones (strip timezoneName) = some z) :
    (∀ (now : Instant) (days : Int), 1 ≤ days → days ≤ 3660 →
      (z.localTime now.second).fold = false →
        RollingAnswer z now days (rollingDaysInterval zones days now timezoneName)) ∧
    (∀ localDate : Fin 3652059,
      DateAnswer z (localDate.val * 86400) ((localDate.val + 1) * 86400)
        (exactLocalDateInterval zones localDate timezoneName)) ∧
    ∀ localDate nextDate interval interval', nextDate.val = localDate.val + 1 →
      exactLocalDateInterval zones localDate timezoneName = .ok interval →
      exactLocalDateInterval zones nextDate timezoneName = .ok interval' →
        interval'.1 = interval.2 := by
  refine ⟨fun now days hlow hhigh hfold => rolling_answer hzone ⟨hlow, hhigh⟩ hfold,
    date_answer hzone, ?_⟩
  intro localDate nextDate interval interval' hnext hinterval hinterval'
  have hanswer := date_answer hzone localDate
  have hanswer' := date_answer hzone nextDate
  rw [hinterval] at hanswer
  rw [hinterval'] at hanswer'
  have hmidnight : (nextDate.val : Int) * 86400 = (localDate.val + 1) * 86400 := by
    rw [hnext]
    rfl
  exact ReadOnce.unique (hmidnight ▸ hanswer'.2.1) hanswer.2.2

end Answers

section Samples

/-- The rules of New York in the year 2026. -/
def newYork : ZoneRules where
  first := -18000
  changes := [⟨63908550000, -14400⟩, ⟨63929109600, -18000⟩]
  apart := by decide
  bounded := by decide

def newYorkZones : Zones := fun name => if name = text "America/New_York" then some newYork else none

/-- The 9th of March 2026 at half past six, half past two in New York. -/
def dayAfterChange : Instant := ⟨63908634600 * 1000000, by decide⟩

/-- Half past two of the day before is skipped. -/
theorem skipped_start_refused :
    rollingDaysInterval newYorkZones 1 dayAfterChange "America/New_York" =
      .error datetimeNonexistent := by
  decide +kernel

theorem local_intervals_newYork :
    (∀ (now : Instant) (days : Int), 1 ≤ days → days ≤ 3660 →
      (newYork.localTime now.second).fold = false →
        RollingAnswer newYork now days
          (rollingDaysInterval newYorkZones days now "America/New_York")) ∧
    (∀ localDate : Fin 3652059,
      DateAnswer newYork (localDate.val * 86400) ((localDate.val + 1) * 86400)
        (exactLocalDateInterval newYorkZones localDate "America/New_York")) ∧
    ∀ localDate nextDate interval interval', nextDate.val = localDate.val + 1 →
      exactLocalDateInterval newYorkZones localDate "America/New_York" = .ok interval →
      exactLocalDateInterval newYorkZones nextDate "America/New_York" = .ok interval' →
        interval'.1 = interval.2 :=
  local_intervals (by rw [newYorkZones, if_pos (by decide +kernel)])

end Samples

end HardyAI.Email
