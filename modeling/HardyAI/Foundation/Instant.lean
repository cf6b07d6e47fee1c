import HardyAI.Foundation.Transaction

/-! Instants of UTC between the years 1 and 9999 in microseconds, their
arithmetic, and the text of `datetime.isoformat`. -/

namespace Foundation

/-- The end of the year 9999. -/
def maxMicros : Nat := 3652059 * 86400000000

/-- Microseconds since the start of the year 1. -/
abbrev Instant := Fin maxMicros

section Bounds

instance hours_neZero : NeZero 24 := ⟨by decide⟩

instance minutes_neZero : NeZero 60 := ⟨by decide⟩

instance samples_neZero : NeZero 1000 := ⟨by decide⟩

instance dayMinutes_neZero : NeZero 1440 := ⟨by decide⟩

theorem zero_lt_maxMicros : 0 < maxMicros := by decide

theorem second_lt_maxMicros : 1000000 < maxMicros := by decide

theorem twoSeconds_lt_maxMicros : 2000000 < maxMicros := by decide

theorem threeSeconds_lt_maxMicros : 3000000 < maxMicros := by decide

theorem seconds_lt_maxMicros (second : Fin 1000) : second.val * 1000000 < maxMicros := by
  have hbound := second.isLt
  simp only [maxMicros]
  omega

theorem startSeconds_lt_maxMicros (second : Fin 60) : second.val * 1000000 < maxMicros := by
  have hbound := second.isLt
  simp only [maxMicros]
  omega

theorem minutes_lt_maxMicros (minute : Fin 1440) :
    63871200000000000 + minute.val * 60000000 < maxMicros := by
  have hbound := minute.isLt
  simp only [maxMicros]
  omega

theorem hours_lt_maxMicros (hour : Fin 24) :
    hour.val * 3600000000 + 63871200000000000 < maxMicros := by
  have hbound := hour.isLt
  simp only [maxMicros]
  omega

theorem Instant.floor_lt (t : Instant) : t.val - t.val % 1000000 < maxMicros := by omega

theorem toNat_lt_maxMicros {n : Int} (h : 0 ≤ n ∧ n < maxMicros) : n.toNat < maxMicros := by omega

end Bounds

/-- A number of seconds as `timedelta` reads it: whole microseconds, or one of
the floats that denote no duration. -/
inductive Seconds
  | micros (n : Int)
  | infinite
  | nan
  deriving DecidableEq

/-- `max(bound, float(seconds))`, which keeps its first argument where the two
cannot be compared. -/
def Seconds.atLeast (bound : Int) : Seconds → Seconds
  | .micros n => .micros (max bound n)
  | .infinite => .infinite
  | .nan => .micros bound

/-- `now + timedelta(seconds=…)`. -/
def Instant.add (now : Instant) : Seconds → Except PyError Instant
  | .micros n =>
    if h : 0 ≤ (now.val : Int) + n ∧ (now.val : Int) + n < maxMicros then
      .ok ⟨((now.val : Int) + n).toNat, by omega⟩
    else .error .overflowError
  | .infinite => .error .overflowError
  | .nan => .error (.valueError "cannot convert float NaN to integer")

def daysBeforeMonth (leap : Bool) (month : Nat) : Nat :=
  [0, 0, 31, 59, 90, 120, 151, 181, 212, 243, 273, 304, 334].getD month 0 +
    if leap && month > 2 then 1 else 0

/-- The year, month and day of a day counted from 0, as `datetime` computes
them. -/
def ordinalDate (day : Nat) : Nat × Nat × Nat :=
  let n400 := day / 146097
  let n := day % 146097
  let n100 := n / 36524
  let n := n % 36524
  let n4 := n / 1461
  let n := n % 1461
  let n1 := n / 365
  let n := n % 365
  let year := n400 * 400 + 1 + n100 * 100 + n4 * 4 + n1
  if n1 = 4 ∨ n100 = 4 then (year - 1, 12, 31)
  else
    let leap := n1 = 3 ∧ (n4 ≠ 24 ∨ n100 = 3)
    let guess := (n + 50) / 32
    let month := if n < daysBeforeMonth leap guess then guess - 1 else guess
    (year, month, n - daysBeforeMonth leap month + 1)

/-- The last `width` decimal digits of `n`. -/
def padded : Nat → Nat → Str
  | 0, _ => []
  | width + 1, n => padded width (n / 10) ++ [⟨48 + n % 10, by omega⟩]

/-- `_iso_utc`: the fraction is left out where it is zero. -/
@[irreducible] def isoUtc (t : Instant) : Str :=
  let (year, month, day) := ordinalDate (t.val / 86400000000)
  let second := t.val / 1000000 % 86400
  let micro := t.val % 1000000
  padded 4 year ++ text "-" ++ padded 2 month ++ text "-" ++ padded 2 day ++ text "T" ++
    padded 2 (second / 3600) ++ text ":" ++ padded 2 (second / 60 % 60) ++ text ":" ++
    padded 2 (second % 60) ++ (if micro = 0 then [] else text "." ++ padded 6 micro) ++
    text "+00:00"

example : isoUtc ⟨63871234567000001, by decide⟩ = text "2024-12-31T09:36:07.000001+00:00" := by
  decide +kernel

end Foundation
