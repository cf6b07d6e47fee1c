import HardyAI.Foundation.IsoOrder

/-! `_iso_utc` over datetimes of any time zone, and the order of its texts. -/

namespace HardyAI.Jobs

open Foundation

/-- The clock reading of a datetime and the offset of its time zone, both in
microseconds; an offset stays below one day. -/
structure Datetime where
  wall : Instant
  utcoffset : Option Int
  bounded : ∀ offset ∈ utcoffset, -86400000000 < offset ∧ offset < 86400000000

namespace Datetime

/-- `astimezone(UTC)`, where a naive datetime counts as one of UTC. -/
def astimezone (d : Datetime) : Except PyError Instant :=
  match d.utcoffset with
  | none => .ok d.wall
  | some offset => d.wall.add (.micros (-offset))

/-- `_iso_utc`. -/
def isoUtcText (d : Datetime) : Except PyError Str := d.astimezone.map isoUtc

/-- The moment of a datetime, also where no datetime of UTC names it. -/
def moment (d : Datetime) : Int := d.wall.val - d.utcoffset.getD 0

theorem astimezone_eq_ok_iff {d : Datetime} {t : Instant} :
    d.astimezone = .ok t ↔ (t.val : Int) = d.moment := by
  rw [astimezone, moment]
  cases hoffset : d.utcoffset with
  | none =>
    simp only [Except.ok.injEq, Option.getD_none]
    constructor
    · intro h
      rw [h, Int.sub_zero]
    · intro h
      exact Fin.ext (by omega)
  | some offset =>
    simp only [Instant.add, Option.getD_some]
    have ht := t.isLt
    split
    · rename_i hrange
      rw [Except.ok.injEq, Fin.ext_iff]
      show ((d.wall.val : Int) + -offset).toNat = t.val ↔ _
      omega
    · rename_i hrange
      constructor
      · intro h
        cases h
      · intro h
        exact absurd ⟨by omega, by omega⟩ hrange

theorem isoUtcText_eq_ok {d : Datetime} {s : Str} (h : d.isoUtcText = .ok s) :
    ∃ t : Instant, (t.val : Int) = d.moment ∧ s = isoUtc t := by
  rw [isoUtcText] at h
  cases ht : d.astimezone with
  | error e =>
    rw [ht] at h
    cases h
  | ok t =>
    rw [ht] at h
    exact ⟨t, astimezone_eq_ok_iff.1 ht, (Except.ok.inj h).symm⟩

/-- Only a moment outside the years 1 to 9999 has no text. -/
theorem isoUtcText_isOk {d : Datetime} :
    (∃ s, d.isoUtcText = .ok s) ↔ 0 ≤ d.moment ∧ d.moment < maxMicros := by
  constructor
  · rintro ⟨s, hs⟩
    obtain ⟨t, ht, -⟩ := isoUtcText_eq_ok hs
    have := t.isLt
    omega
  · intro hrange
    have hlt : d.moment.toNat < maxMicros := by omega
    have ht : d.astimezone = .ok ⟨d.moment.toNat, hlt⟩ :=
      astimezone_eq_ok_iff.2 (Int.toNat_of_nonneg hrange.1)
    refine ⟨isoUtc ⟨d.moment.toNat, hlt⟩, ?_⟩
    rw [isoUtcText, ht]
    rfl

theorem isoUtcText_order {a b : Datetime} {s t : Str} (hs : a.isoUtcText = .ok s)
    (ht : b.isoUtcText = .ok t) :
    (s < t ↔ a.moment < b.moment) ∧ (s = t ↔ a.moment = b.moment) ∧
      (s ≤ t ↔ a.moment ≤ b.moment) := by
  obtain ⟨x, hx, rfl⟩ := isoUtcText_eq_ok hs
  obtain ⟨y, hy, rfl⟩ := isoUtcText_eq_ok ht
  refine ⟨?_, ?_, ?_⟩
  · rw [isoUtc_strictMono.lt_iff_lt, Fin.lt_def]
    omega
  · rw [isoUtc_strictMono.injective.eq_iff, Fin.ext_iff]
    omega
  · rw [isoUtc_strictMono.le_iff_le, Fin.le_def]
    omega

/-- The same second in two time zones, a fraction apart. -/
theorem isoUtcText_order_fraction :
    let a : Datetime := ⟨⟨63871234567000000, by decide⟩, some 3600000000, by decide⟩
    let b : Datetime := ⟨⟨63871230967000001, by decide⟩, some 0, by decide⟩
    ∃ s t, a.isoUtcText = .ok s ∧ b.isoUtcText = .ok t ∧ s < t ∧ s.length < t.length := by
  intro a b
  obtain ⟨s, hs⟩ := (isoUtcText_isOk (d := a)).2 (by decide)
  obtain ⟨t, ht⟩ := (isoUtcText_isOk (d := b)).2 (by decide)
  have horder := (isoUtcText_order (a := a) (b := b) hs ht).1.2 (by decide)
  refine ⟨s, t, hs, ht, horder, ?_⟩
  have hstext : a.isoUtcText = .ok (text "2024-12-31T08:36:07+00:00") := by decide +kernel
  have httext : b.isoUtcText = .ok (text "2024-12-31T08:36:07.000001+00:00") := by
    decide +kernel
  obtain rfl := Except.ok.inj (hs.symm.trans hstext)
  obtain rfl := Except.ok.inj (ht.symm.trans httext)
  decide

end Datetime

end HardyAI.Jobs
