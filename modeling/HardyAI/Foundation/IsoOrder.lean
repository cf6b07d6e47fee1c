import HardyAI.Foundation.Calendar

/-! The texts of `isoUtc` stand in the order of the instants that they are written for. -/

namespace Foundation

section Words

variable {p q s t : Str} {a b w : Nat}

/-- Texts of one length decide before what follows them. -/
theorem append_lt_append (hlength : p.length = q.length) (h : p < q ∨ p = q ∧ s < t) :
    p ++ s < q ++ t := by
  rcases h with hlt | ⟨rfl, hlt⟩
  · induction p generalizing q with
    | nil =>
      obtain rfl := List.eq_nil_of_length_eq_zero hlength.symm
      exact absurd hlt (List.not_lt_nil _)
    | cons x p ih =>
      cases q with
      | nil => cases hlength
      | cons y q =>
        rw [List.cons_append, List.cons_append, List.cons_lt_cons_iff]
        rcases List.cons_lt_cons_iff.1 hlt with hxy | ⟨rfl, hpq⟩
        · exact .inl hxy
        · exact .inr ⟨rfl, ih (Nat.succ.inj hlength) hpq⟩
  · exact List.append_left_lt hlt

theorem padded_lt (hab : a < b) (hb : b < 10 ^ w) : padded w a < padded w b := by
  induction w generalizing a b with
  | zero =>
    rw [Nat.pow_zero] at hb
    omega
  | succ w ih =>
    rw [Nat.pow_succ] at hb
    rw [padded, padded]
    refine append_lt_append (by rw [length_padded, length_padded]) ?_
    rcases Nat.lt_or_ge (a / 10) (b / 10) with hlt | hge
    · exact .inl (ih hlt (by omega))
    · have hsame : a / 10 = b / 10 := by omega
      refine .inr ⟨by rw [hsame], ?_⟩
      rw [List.cons_lt_cons_iff]
      exact .inl (show 48 + a % 10 < 48 + b % 10 by omega)

theorem padded_append_lt (hb : b < 10 ^ w) (h : a < b ∨ a = b ∧ s < t) :
    padded w a ++ s < padded w b ++ t := by
  refine append_lt_append (by rw [length_padded, length_padded]) ?_
  rcases h with hlt | ⟨rfl, hst⟩
  · exact .inl (padded_lt hlt hb)
  · exact .inr ⟨rfl, hst⟩

end Words

section Dates

/-- The order of years, months and days. -/
def DateLt (x y : Nat × Nat × Nat) : Prop :=
  x.1 < y.1 ∨ x.1 = y.1 ∧ (x.2.1 < y.2.1 ∨ x.2.1 = y.2.1 ∧ x.2.2 < y.2.2)

theorem monthOfDay_succ (leap : Bool) (n : Fin 365) :
    100 * (monthOfDay leap n).1 + (monthOfDay leap n).2 <
      100 * (monthOfDay leap (n + 1)).1 + (monthOfDay leap (n + 1)).2 := by
  revert leap n
  decide +kernel

theorem monthOfDay_day_lt (leap : Bool) (n : Fin 366) : (monthOfDay leap n).2 < 100 := by
  revert leap n
  decide +kernel

theorem monthOfDay_lt {leap : Bool} {m n : Nat} (hmn : m < n) (hn : n < 366) :
    100 * (monthOfDay leap m).1 + (monthOfDay leap m).2 <
      100 * (monthOfDay leap n).1 + (monthOfDay leap n).2 := by
  induction n, hmn using Nat.le_induction with
  | base => exact monthOfDay_succ leap ⟨m, by omega⟩
  | succ n hmn ih => exact (ih (by omega)).trans (monthOfDay_succ leap ⟨n, by omega⟩)

theorem daysBeforeYear_succ {y : Nat} (hy : 1 ≤ y) :
    daysBeforeYear (y + 1) = daysBeforeYear y + 365 + if isLeap y then 1 else 0 := by
  obtain ⟨z, rfl⟩ : ∃ z, y = z + 1 := ⟨y - 1, by omega⟩
  have hless : z / 100 ≤ z / 4 := Nat.div_le_div_left (by omega) (by omega)
  have hfour : (z + 1) / 4 = z / 4 + if (z + 1) % 4 = 0 then 1 else 0 := by
    split <;> omega
  have hhundred : (z + 1) / 100 = z / 100 + if (z + 1) % 100 = 0 then 1 else 0 := by
    split <;> omega
  have hcentury : (z + 1) / 400 = z / 400 + if (z + 1) % 400 = 0 then 1 else 0 := by
    split <;> omega
  have hleap : isLeap (z + 1) = true ↔
      (z + 1) % 4 = 0 ∧ ((z + 1) % 100 ≠ 0 ∨ (z + 1) % 400 = 0) := by
    simp [isLeap]
  rw [daysBeforeYear, daysBeforeYear, Nat.add_sub_cancel, Nat.add_sub_cancel, hfour, hhundred,
    hcentury]
  simp only [hleap]
  have hmod : (z + 1) % 100 = 0 → (z + 1) % 4 = 0 := by omega
  have hmod' : (z + 1) % 400 = 0 → (z + 1) % 100 = 0 := by omega
  generalize z / 4 = a at *
  generalize z / 100 = b at *
  generalize z / 400 = c at *
  by_cases h4 : (z + 1) % 4 = 0
  · by_cases h100 : (z + 1) % 100 = 0
    · by_cases h400 : (z + 1) % 400 = 0
      · simp only [h4, h100, h400, if_true, ne_eq, not_true, false_or, and_self]
        omega
      · simp only [h4, h100, h400, if_true, if_false, ne_eq, not_true, or_false, and_false]
        omega
    · have h400 : ¬(z + 1) % 400 = 0 := fun h => h100 (hmod' h)
      simp only [h4, h100, h400, if_true, if_false, ne_eq, not_false_eq_true, or_false, and_self]
      omega
  · have h100 : ¬(z + 1) % 100 = 0 := fun h => h4 (hmod h)
    have h400 : ¬(z + 1) % 400 = 0 := fun h => h100 (hmod' h)
    simp only [h4, h100, h400, if_false, false_and]
    omega

theorem daysBeforeYear_mono {x y : Nat} (hx : 1 ≤ x) (h : x ≤ y) :
    daysBeforeYear x ≤ daysBeforeYear y := by
  induction y, h using Nat.le_induction with
  | base => exact le_rfl
  | succ y hy ih =>
    rw [daysBeforeYear_succ (hx.trans hy)]
    omega

/-- A day as a day of its year. -/
theorem exists_dayOfYear (day : Nat) : ∃ n, day = daysBeforeYear (ordinalDate day).1 + n ∧
    1 ≤ (ordinalDate day).1 ∧ n < 365 + (if isLeap (ordinalDate day).1 then 1 else 0) ∧
    (ordinalDate day).2 = monthOfDay (isLeap (ordinalDate day).1) n := by
  obtain ⟨a, b, c, d, n, h, hdate⟩ := ordinalDate_parts day
  rw [hdate]
  refine ⟨n, ?_, by omega, ?_, rfl⟩
  · rw [daysBeforeYear_parts h.b_le h.c_le h.d_le]
    exact h.split
  · rw [isLeap_parts h.b_le h.c_le h.d_le]
    rcases h.n_lt with hlt | ⟨rfl, hd, hleap⟩
    · omega
    · simp [hd, hleap]

theorem ordinalDate_lt_ordinalDate {x y : Nat} (h : x < y) :
    DateLt (ordinalDate x) (ordinalDate y) := by
  obtain ⟨m, hx, hxpos, hm, hxdate⟩ := exists_dayOfYear x
  obtain ⟨n, hy, hypos, hn, hydate⟩ := exists_dayOfYear y
  rcases lt_trichotomy (ordinalDate x).1 (ordinalDate y).1 with hlt | heq | hgt
  · exact .inl hlt
  · refine .inr ⟨heq, ?_⟩
    rw [← heq] at hy hn hydate
    have hmn : m < n := by omega
    have hleap : (if isLeap (ordinalDate x).1 then 1 else 0) ≤ 1 := by split <;> omega
    have hn' : n < 366 := by omega
    have hkey : 100 * (monthOfDay (isLeap (ordinalDate x).1) m).1 +
        (monthOfDay (isLeap (ordinalDate x).1) m).2 <
        100 * (monthOfDay (isLeap (ordinalDate x).1) n).1 +
          (monthOfDay (isLeap (ordinalDate x).1) n).2 := monthOfDay_lt hmn hn'
    have hday := monthOfDay_day_lt (isLeap (ordinalDate x).1) ⟨m, by omega⟩
    have hday' := monthOfDay_day_lt (isLeap (ordinalDate x).1) ⟨n, hn'⟩
    dsimp only at hday hday'
    rw [hxdate, hydate]
    omega
  · have hnext := daysBeforeYear_succ hypos
    have hmono := daysBeforeYear_mono (Nat.le_add_left 1 _) (show (ordinalDate y).1 + 1 ≤ (ordinalDate x).1 from hgt)
    omega

end Dates

section Instants

/-- The part of a second with the offset of UTC. -/
def isoFraction (micro : Nat) : Str :=
  (if micro = 0 then [] else text "." ++ padded 6 micro) ++ text "+00:00"

theorem isoUtc_parts (t : Instant) : isoUtc t =
    padded 4 (ordinalDate (t.val / 86400000000)).1 ++ (text "-" ++
      (padded 2 (ordinalDate (t.val / 86400000000)).2.1 ++ (text "-" ++
      (padded 2 (ordinalDate (t.val / 86400000000)).2.2 ++ (text "T" ++
      (padded 2 (t.val / 1000000 % 86400 / 3600) ++ (text ":" ++
      (padded 2 (t.val / 1000000 % 86400 / 60 % 60) ++ (text ":" ++
      (padded 2 (t.val / 1000000 % 86400 % 60) ++ isoFraction (t.val % 1000000))))))))))) := by
  rw [isoUtc]
  simp only [isoFraction, List.append_assoc]

/-- Where one text has no fraction the offset decides: a plus sign stands before a point. -/
theorem isoFraction_lt {m n : Nat} (hmn : m < n) (hn : n < 1000000) :
    isoFraction m < isoFraction n := by
  have hpos : n ≠ 0 := by omega
  rw [isoFraction, isoFraction, if_neg hpos]
  by_cases hm : m = 0
  · rw [if_pos hm, List.nil_append]
    have hsign : text "+00:00" = 43 :: text "00:00" := by decide
    have hpoint : text "." = [46] := by decide
    rw [hsign, hpoint, List.append_assoc, List.singleton_append, List.cons_lt_cons_iff]
    exact .inl (by decide)
  · rw [if_neg hm, List.append_assoc, List.append_assoc]
    exact List.append_left_lt (padded_append_lt (by omega) (.inl hmn))

theorem isoUtc_lt_isoUtc {a b : Instant} (h : a < b) : isoUtc a < isoUtc b := by
  have hlt : a.val < b.val := h
  have hdays : b.val / 86400000000 < 3652059 := by
    have := b.isLt
    unfold maxMicros at this
    omega
  obtain ⟨hyear, hmonth, hday⟩ := ordinalDate_lt hdays
  rw [isoUtc_parts, isoUtc_parts]
  have hdate : DateLt (ordinalDate (a.val / 86400000000)) (ordinalDate (b.val / 86400000000)) ∨
      a.val / 86400000000 = b.val / 86400000000 := by
    rcases Nat.lt_or_ge (a.val / 86400000000) (b.val / 86400000000) with hless | hge
    · exact .inl (ordinalDate_lt_ordinalDate hless)
    · exact .inr (by omega)
  have hsame : ∀ {w x : Str} {u : Nat}, w < x → padded 2 u ++ w < padded 2 u ++ x :=
    fun hwx => List.append_left_lt hwx
  rcases hdate with hyears | hdays'
  · refine padded_append_lt hyear ?_
    rcases hyears with hlt | ⟨heq, hmonths⟩
    · exact .inl hlt
    · refine .inr ⟨heq, List.append_left_lt (padded_append_lt (by omega) ?_)⟩
      rcases hmonths with hlt | ⟨heq, hlt⟩
      · exact .inl hlt
      · exact .inr ⟨heq, List.append_left_lt (padded_append_lt (by omega) (.inl hlt))⟩
  · rw [hdays']
    refine List.append_left_lt (List.append_left_lt (List.append_left_lt (List.append_left_lt
      (List.append_left_lt (List.append_left_lt (padded_append_lt (by omega) ?_))))))
    by_cases hhour : a.val / 1000000 % 86400 / 3600 = b.val / 1000000 % 86400 / 3600
    · refine .inr ⟨hhour, List.append_left_lt (padded_append_lt (by omega) ?_)⟩
      by_cases hminute : a.val / 1000000 % 86400 / 60 % 60 = b.val / 1000000 % 86400 / 60 % 60
      · refine .inr ⟨hminute, List.append_left_lt (padded_append_lt (by omega) ?_)⟩
        by_cases hsecond : a.val / 1000000 % 86400 % 60 = b.val / 1000000 % 86400 % 60
        · exact .inr ⟨hsecond, isoFraction_lt (by omega) (by omega)⟩
        · exact .inl (by omega)
      · exact .inl (by omega)
    · exact .inl (by omega)

theorem isoUtc_strictMono : StrictMono isoUtc := fun _ _ h => isoUtc_lt_isoUtc h

end Instants

section Seconds

/-- The seconds since the start of the year 1. -/
def Instant.second (t : Instant) : Nat := t.val / 1000000

/-- `replace(microsecond=0)`. -/
def Instant.floor (t : Instant) : Instant := ⟨t.val - t.val % 1000000, t.floor_lt⟩

theorem isoUtc_body (t : Instant) : isoUtc t = isoBody t ++ isoFraction (t.val % 1000000) := by
  rw [isoUtc]
  simp only [isoBody, isoDate, isoTime, isoFraction, List.append_assoc]

theorem length_isoBody (t : Instant) : (isoBody t).length = 19 := by
  have hmark : (text "T").length = 1 := rfl
  have hcolon : (text ":").length = 1 := rfl
  simp only [isoBody, isoTime, List.length_append, length_isoDate, length_padded, hmark, hcolon]

theorem isoBody_of_eq {a b : Instant} (h : a.second = b.second) : isoBody a = isoBody b := by
  have hsecond : a.val / 1000000 = b.val / 1000000 := h
  have hday : a.val / 86400000000 = b.val / 86400000000 := by omega
  rw [isoBody, isoBody, hsecond, hday]

theorem second_floor (t : Instant) : t.floor.second = t.second := by
  show (t.val - t.val % 1000000) / 1000000 = t.val / 1000000
  omega

theorem floor_mod (t : Instant) : t.floor.val % 1000000 = 0 := by
  show (t.val - t.val % 1000000) % 1000000 = 0
  omega

theorem isoUtc_floor (t : Instant) : isoUtc t.floor = isoBody t ++ text "+00:00" := by
  rw [isoUtc_eq (floor_mod t), isoBody_of_eq (second_floor t)]

theorem isoBody_lt {a b : Instant} (h : a.second < b.second) : isoBody a < isoBody b := by
  have hlt : a.floor < b.floor := by
    have hval : a.val / 1000000 < b.val / 1000000 := h
    show a.val - a.val % 1000000 < b.val - b.val % 1000000
    omega
  have htext := isoUtc_lt_isoUtc hlt
  rw [isoUtc_floor, isoUtc_floor] at htext
  rcases lt_trichotomy (isoBody a) (isoBody b) with hless | heq | hgreater
  · exact hless
  · rw [heq] at htext
    exact absurd htext (lt_irrefl _)
  · have hback : isoBody b ++ text "+00:00" < isoBody a ++ text "+00:00" :=
      append_lt_append (by rw [length_isoBody, length_isoBody]) (.inl hgreater)
    exact absurd (htext.trans hback) (lt_irrefl _)

end Seconds

end Foundation
