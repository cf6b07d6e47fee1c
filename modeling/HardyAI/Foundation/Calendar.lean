import HardyAI.Foundation.Instant
import HardyAI.Foundation.JsonText

/-! Dates read back from the text that is written for them. -/

namespace Foundation

section Ordinals

def isLeap (year : Nat) : Bool := year % 4 = 0 ∧ (year % 100 ≠ 0 ∨ year % 400 = 0)

def daysBeforeYear (year : Nat) : Nat :=
  (year - 1) * 365 + (year - 1) / 4 - (year - 1) / 100 + (year - 1) / 400

/-- The day of a date, counted from 0. -/
def dateOrdinal (date : Nat × Nat × Nat) : Nat :=
  daysBeforeYear date.1 + daysBeforeMonth (isLeap date.1) date.2.1 + date.2.2 - 1

/-- The month and the day of the `n`-th day of a year. -/
def monthOfDay (leap : Bool) (n : Nat) : Nat × Nat :=
  let guess := (n + 50) / 32
  let month := if n < daysBeforeMonth leap guess then guess - 1 else guess
  (month, n - daysBeforeMonth leap month + 1)

theorem monthOfDay_spec (leap : Bool) (n : Fin 366) (hn : n < 365 ∨ leap = true) :
    daysBeforeMonth leap (monthOfDay leap n).1 + (monthOfDay leap n).2 = n + 1 ∧
      (monthOfDay leap n).1 < 100 ∧ (monthOfDay leap n).2 < 100 := by
  revert leap n
  decide +kernel

/-- A day in the parts that its year is found from. -/
structure DayParts (day a b c d n : Nat) : Prop where
  split : day = 146097 * a + 36524 * b + 1461 * c + 365 * d + n
  b_le : b ≤ 3
  c_le : c ≤ 24
  d_le : d ≤ 3
  n_lt : n < 365 ∨ n = 365 ∧ d = 3 ∧ (c ≠ 24 ∨ b = 3)

theorem isLeap_parts {a b c d : Nat} (hb : b ≤ 3) (hc : c ≤ 24) (hd : d ≤ 3) :
    isLeap (400 * a + 100 * b + 4 * c + d + 1) = decide (d = 3 ∧ (c ≠ 24 ∨ b = 3)) := by
  rw [isLeap, decide_eq_decide]
  omega

theorem daysBeforeYear_parts {a b c d : Nat} (hb : b ≤ 3) (hc : c ≤ 24) (hd : d ≤ 3) :
    daysBeforeYear (400 * a + 100 * b + 4 * c + d + 1) =
      146097 * a + 36524 * b + 1461 * c + 365 * d := by
  rw [daysBeforeYear, Nat.add_sub_cancel]
  omega

theorem monthOfDay_last : monthOfDay true 365 = (12, 31) := by decide +kernel

theorem ordinalDate_parts (day : Nat) : ∃ a b c d n, DayParts day a b c d n ∧
    ordinalDate day = (400 * a + 100 * b + 4 * c + d + 1,
      monthOfDay (isLeap (400 * a + 100 * b + 4 * c + d + 1)) n) := by
  have hlast : ∀ a b c, b ≤ 3 → c ≤ 24 → (c ≠ 24 ∨ b = 3) →
      isLeap (400 * a + 100 * b + 4 * c + 3 + 1) = true := by
    intro a b c hb hc hleap
    rw [isLeap_parts hb hc le_rfl, decide_eq_true_eq]
    exact ⟨rfl, hleap⟩
  unfold ordinalDate
  dsimp only
  by_cases hend : day % 146097 % 36524 % 1461 / 365 = 4 ∨ day % 146097 / 36524 = 4
  · rw [if_pos hend]
    by_cases hcentury : day % 146097 / 36524 = 4
    · refine ⟨day / 146097, 3, 24, 3, 365, ⟨by omega, le_rfl, le_rfl, le_rfl, by omega⟩, ?_⟩
      rw [hlast _ 3 24 le_rfl le_rfl (.inr rfl), monthOfDay_last]
      exact Prod.ext (by dsimp only; omega) rfl
    · have hc : day % 146097 % 36524 / 1461 ≠ 24 := by omega
      refine ⟨day / 146097, day % 146097 / 36524, day % 146097 % 36524 / 1461, 3, 365,
        ⟨by omega, by omega, by omega, le_rfl, by omega⟩, ?_⟩
      rw [hlast _ _ _ (by omega) (by omega) (.inl hc), monthOfDay_last]
      exact Prod.ext (by dsimp only; omega) rfl
  · rw [if_neg hend]
    refine ⟨day / 146097, day % 146097 / 36524, day % 146097 % 36524 / 1461,
      day % 146097 % 36524 % 1461 / 365, day % 146097 % 36524 % 1461 % 365,
      ⟨by omega, by omega, by omega, by omega, by omega⟩, ?_⟩
    rw [isLeap_parts (by omega) (by omega) (by omega)]
    refine Prod.ext ?_ ?_
    · dsimp only
      omega
    · rfl

theorem DayParts.month {day a b c d n : Nat} (h : DayParts day a b c d n) :
    daysBeforeMonth (isLeap (400 * a + 100 * b + 4 * c + d + 1))
        (monthOfDay (isLeap (400 * a + 100 * b + 4 * c + d + 1)) n).1 +
        (monthOfDay (isLeap (400 * a + 100 * b + 4 * c + d + 1)) n).2 = n + 1 ∧
      (monthOfDay (isLeap (400 * a + 100 * b + 4 * c + d + 1)) n).1 < 100 ∧
      (monthOfDay (isLeap (400 * a + 100 * b + 4 * c + d + 1)) n).2 < 100 := by
  have hn : n < 366 := by
    have := h.n_lt
    omega
  refine monthOfDay_spec _ ⟨n, hn⟩ ?_
  rcases h.n_lt with hlt | ⟨-, hd, hleap⟩
  · exact .inl hlt
  · refine .inr ?_
    rw [isLeap_parts h.b_le h.c_le h.d_le, decide_eq_true_eq]
    exact ⟨hd, hleap⟩

/-- The date of a day is the date that the day is counted from. -/
theorem dateOrdinal_ordinalDate (day : Nat) : dateOrdinal (ordinalDate day) = day := by
  obtain ⟨a, b, c, d, n, h, hdate⟩ := ordinalDate_parts day
  rw [hdate, dateOrdinal, daysBeforeYear_parts h.b_le h.c_le h.d_le]
  have hsplit := h.split
  have hmonth := h.month.1
  dsimp only
  omega

theorem ordinalDate_lt {day : Nat} (hday : day < 3652059) :
    (ordinalDate day).1 < 10000 ∧ (ordinalDate day).2.1 < 100 ∧ (ordinalDate day).2.2 < 100 := by
  obtain ⟨a, b, c, d, n, h, hdate⟩ := ordinalDate_parts day
  rw [hdate]
  refine ⟨?_, h.month.2⟩
  have hsplit := h.split
  have hb := h.b_le
  have hc := h.c_le
  have hd := h.d_le
  dsimp only
  omega

end Ordinals

section Digits

theorem isNumeral_padded {width n : Nat} {c : CodePoint} (h : c ∈ padded width n) :
    isNumeral c = true := by
  induction width generalizing n with
  | zero => exact absurd h List.not_mem_nil
  | succ width ih =>
    rw [padded] at h
    rcases List.mem_append.1 h with h | h
    · exact ih h
    · obtain rfl := List.mem_singleton.1 h
      simp only [isNumeral, Bool.and_eq_true, decide_eq_true_eq]
      omega

theorem length_padded (width n : Nat) : (padded width n).length = width := by
  induction width generalizing n with
  | zero => rfl
  | succ width ih => rw [padded, List.length_append, ih, List.length_singleton]

/-- The number that digits stand for. -/
def digitsValue (s : Str) : Nat := s.foldl (fun n c => 10 * n + (c.val - 48)) 0

theorem digitsValue_padded {width n : Nat} (h : n < 10 ^ width) :
    digitsValue (padded width n) = n := by
  induction width generalizing n with
  | zero =>
    rw [Nat.pow_zero] at h
    obtain rfl : n = 0 := by omega
    rfl
  | succ width ih =>
    rw [Nat.pow_succ] at h
    have hrest : digitsValue (padded width (n / 10)) = n / 10 := ih (by omega)
    unfold digitsValue at hrest ⊢
    rw [padded, List.foldl_append, hrest, List.foldl_cons, List.foldl_nil]
    dsimp only
    omega

end Digits

section Texts

/-- The date of a day counted from 0, as `date.isoformat` writes it. -/
def isoDate (day : Nat) : Str :=
  padded 4 (ordinalDate day).1 ++ text "-" ++ padded 2 (ordinalDate day).2.1 ++ text "-" ++
    padded 2 (ordinalDate day).2.2

/-- The time of the day, counted in seconds. -/
def isoTime (second : Nat) : Str :=
  padded 2 (second / 3600) ++ text ":" ++ padded 2 (second / 60 % 60) ++ text ":" ++
    padded 2 (second % 60)

def isoBody (t : Instant) : Str :=
  isoDate (t.val / 86400000000) ++ text "T" ++ isoTime (t.val / 1000000 % 86400)

theorem isoUtc_eq {t : Instant} (h : t.val % 1000000 = 0) :
    isoUtc t = isoBody t ++ text "+00:00" := by
  rw [isoUtc]
  simp only [h, if_true, isoBody, isoDate, isoTime, List.append_nil, List.append_assoc]

/-- The number at a place of a text. -/
def numberAt (s : Str) (start width : Nat) : Nat := digitsValue ((s.drop start).take width)

theorem numberAt_append {before after : Str} {start width n : Nat} (h : n < 10 ^ width)
    (hstart : before.length = start) :
    numberAt (before ++ padded width n ++ after) start width = n := by
  have hdrop : (before ++ padded width n ++ after).drop start = padded width n ++ after := by
    rw [← hstart, List.append_assoc, List.drop_left]
  have htake : (padded width n ++ after).take width = padded width n :=
    List.take_left' (length_padded width n)
  rw [numberAt, hdrop, htake, digitsValue_padded h]

def dateAt (s : Str) : Nat := dateOrdinal (numberAt s 0 4, numberAt s 5 2, numberAt s 8 2)

theorem length_dash : (text "-").length = 1 := by decide

theorem dateAt_isoDate {day : Nat} (hday : day < 3652059) (after : Str) :
    dateAt (isoDate day ++ after) = day := by
  obtain ⟨hyear, hmonth, hdate⟩ := ordinalDate_lt hday
  have hy : numberAt (isoDate day ++ after) 0 4 = (ordinalDate day).1 := by
    have := @numberAt_append [] (text "-" ++ padded 2 (ordinalDate day).2.1 ++ text "-" ++
      padded 2 (ordinalDate day).2.2 ++ after) 0 4 _ hyear rfl
    simpa only [isoDate, List.append_assoc, List.nil_append] using this
  have hm : numberAt (isoDate day ++ after) 5 2 = (ordinalDate day).2.1 := by
    have := @numberAt_append (padded 4 (ordinalDate day).1 ++ text "-") (text "-" ++
      padded 2 (ordinalDate day).2.2 ++ after) 5 2 _ hmonth (by
        rw [List.length_append, length_padded, length_dash])
    simpa only [isoDate, List.append_assoc] using this
  have hd : numberAt (isoDate day ++ after) 8 2 = (ordinalDate day).2.2 := by
    have := @numberAt_append (padded 4 (ordinalDate day).1 ++ text "-" ++
      padded 2 (ordinalDate day).2.1 ++ text "-") after 8 2 _ hdate (by
        simp only [List.length_append, length_padded, length_dash])
    simpa only [isoDate, List.append_assoc] using this
  rw [dateAt, hy, hm, hd]
  exact dateOrdinal_ordinalDate day

/-- The day of a text that `isoDate` writes. -/
def readIsoDate (s : Str) : Option (Fin 3652059) :=
  if h : dateAt s < 3652059 then
    if isoDate (dateAt s) = s then some ⟨dateAt s, h⟩ else none
  else none

theorem readIsoDate_isoDate (day : Fin 3652059) : readIsoDate (isoDate day) = some day := by
  have hday : dateAt (isoDate day) = day := by
    have := dateAt_isoDate day.isLt []
    rwa [List.append_nil] at this
  simp only [readIsoDate, hday, day.isLt, dite_true, if_true]

def secondAt (s : Str) : Nat := numberAt s 11 2 * 3600 + numberAt s 14 2 * 60 + numberAt s 17 2

/-- The instant of a text in whole seconds that `isoUtc` writes. -/
def readIsoUtc (s : Str) : Option Int :=
  let micros := (dateAt s * 86400 + secondAt s) * 1000000
  if h : micros < maxMicros then if isoUtc ⟨micros, h⟩ = s then some micros else none else none

theorem length_isoDate (day : Nat) : (isoDate day).length = 10 := by
  simp only [isoDate, List.length_append, length_padded, length_dash]

theorem secondAt_isoTime {before : Str} {second : Nat} (hbefore : before.length = 11)
    (hsecond : second < 86400) (after : Str) :
    secondAt (before ++ isoTime second ++ after) = second := by
  have hcolon : (text ":").length = 1 := by decide
  have hh : numberAt (before ++ isoTime second ++ after) 11 2 = second / 3600 := by
    have := @numberAt_append before (text ":" ++ padded 2 (second / 60 % 60) ++ text ":" ++
      padded 2 (second % 60) ++ after) 11 2 (second / 3600) (by omega) hbefore
    simpa only [isoTime, List.append_assoc] using this
  have hm : numberAt (before ++ isoTime second ++ after) 14 2 = second / 60 % 60 := by
    have := @numberAt_append (before ++ padded 2 (second / 3600) ++ text ":") (text ":" ++
      padded 2 (second % 60) ++ after) 14 2 (second / 60 % 60) (by omega) (by
        simp only [List.length_append, length_padded, hcolon, hbefore])
    simpa only [isoTime, List.append_assoc] using this
  have hs : numberAt (before ++ isoTime second ++ after) 17 2 = second % 60 := by
    have := @numberAt_append (before ++ padded 2 (second / 3600) ++ text ":" ++
      padded 2 (second / 60 % 60) ++ text ":") after 17 2 (second % 60) (by omega) (by
        simp only [List.length_append, length_padded, hcolon, hbefore])
    simpa only [isoTime, List.append_assoc] using this
  rw [secondAt, hh, hm, hs]
  omega

theorem readIsoUtc_isoUtc {t : Instant} (h : t.val % 1000000 = 0) :
    readIsoUtc (isoUtc t) = some (t.val : Int) := by
  have hlt := t.isLt
  have hmark : (text "T").length = 1 := by decide
  have hday : dateAt (isoUtc t) = t.val / 86400000000 := by
    rw [isoUtc_eq h, isoBody, List.append_assoc, List.append_assoc]
    refine dateAt_isoDate ?_ _
    unfold maxMicros at hlt
    omega
  have hsecond : secondAt (isoUtc t) = t.val / 1000000 % 86400 := by
    rw [isoUtc_eq h, isoBody]
    refine secondAt_isoTime ?_ (by omega) _
    rw [List.length_append, length_isoDate, hmark]
  have hmicros : (t.val / 86400000000 * 86400 + t.val / 1000000 % 86400) * 1000000 = t.val := by
    omega
  simp only [readIsoUtc, hday, hsecond, hmicros, hlt, dite_true, if_true]

end Texts

end Foundation
