import Mathlib.Tactic.Common

/-! The changes of a zone's offset, the local time that they give an instant, and the offset that
they give a local time. -/

namespace Foundation

/-- From the second `since` on, local time is `offset` seconds ahead of UTC. -/
structure Change where
  since : Int
  offset : Int
  deriving DecidableEq

/-- A local time: its wall time, and whether it is the second one of a repeated wall time. -/
structure LocalSecond where
  wall : Int
  fold : Bool
  deriving DecidableEq

/-- The wall times that a change skips or repeats end before those of the next change begin, so
that no wall time is read more than twice. -/
def Apart : Int → List Change → Prop
  | _, [] => True
  | o, c :: rest => (∀ d ∈ rest.head?, c.since < d.since ∧
      c.since + max o c.offset ≤ d.since + min c.offset d.offset) ∧ Apart c.offset rest

instance Apart.decidable : (o : Int) → (cs : List Change) → Decidable (Apart o cs)
  | _, [] => .isTrue trivial
  | o, c :: rest =>
    have := Apart.decidable c.offset rest
    match rest with
    | [] => decidable_of_iff (Apart c.offset []) (by simp [Apart])
    | d :: rest => decidable_of_iff ((c.since < d.since ∧
        c.since + max o c.offset ≤ d.since + min c.offset d.offset) ∧ Apart c.offset (d :: rest))
        (by simp [Apart])

/-- The rules of a zone: its first offset, and the changes in their order. -/
structure ZoneRules where
  first : Int
  changes : List Change
  apart : Apart first changes
  bounded : ∀ o ∈ first :: changes.map Change.offset, -86400 < o ∧ o < 86400

section Changes

/-- The offset and the fold of an instant, where `o` and `f` hold before the changes. -/
def readingFrom (o : Int) (f : Bool) : List Change → Int → Int × Bool
  | [], _ => (o, f)
  | c :: rest, u =>
    if u < c.since then (o, f) else readingFrom c.offset (u - c.since < o - c.offset) rest u

/-- The offset of a wall time. A skipped one has the offset before the change without a fold and
the one after it with a fold. -/
def offsetFrom (o : Int) : List Change → Int → Bool → Int
  | [], _, _ => o
  | c :: rest, w, f =>
    if w < c.since + (if f then min o c.offset else max o c.offset) then o
    else offsetFrom c.offset rest w f

variable {o u e : Int} {f g : Bool} {c : Change} {rest cs : List Change} {r : Int × Bool}

theorem readingFrom_of_lt (h : u < c.since) : readingFrom o f (c :: rest) u = (o, f) := by
  rw [readingFrom, if_pos h]

theorem readingFrom_of_le (h : c.since ≤ u) : readingFrom o f (c :: rest) u =
    readingFrom c.offset (u - c.since < o - c.offset) rest u := by
  rw [readingFrom, if_neg (Int.not_lt.2 h)]

/-- The offset does not depend on the fold before the changes. -/
theorem readingFrom_fst : (readingFrom o f cs u).1 = (readingFrom o g cs u).1 := by
  cases cs with
  | nil => rfl
  | cons c rest =>
    rcases Int.lt_or_le u c.since with h | h
    · rw [readingFrom_of_lt h, readingFrom_of_lt h]
    · rw [readingFrom_of_le h, readingFrom_of_le h]

/-- After a change the wall is past the wall times that it repeats, or in them with a fold. -/
theorem wall_after_change (hapart : Apart o (c :: rest)) (h : c.since ≤ u)
    (hr : readingFrom c.offset (u - c.since < o - c.offset) rest u = r) :
    c.since + (if r.2 then min o c.offset else max o c.offset) ≤ u + r.1 := by
  induction rest generalizing o c with
  | nil =>
    subst hr
    simp only [readingFrom, decide_eq_true_eq]
    split <;> omega
  | cons d rest ih =>
    obtain ⟨hnext, hrest⟩ := hapart
    obtain ⟨hlater, hwalls⟩ := hnext d rfl
    rcases Int.lt_or_le u d.since with hd | hd
    · rw [readingFrom_of_lt hd] at hr
      subst hr
      simp only [decide_eq_true_eq]
      split <;> omega
    · rw [readingFrom_of_le hd] at hr
      have hwall := ih hrest hd hr
      split at hwall <;> split <;> omega

/-- The offset of an instant's local time is the instant's offset. -/
theorem offsetFrom_reading (hapart : Apart o cs) (hr : readingFrom o f cs u = r)
    (hfold : f = true → ∀ c ∈ cs.head?, u + o < c.since + min o c.offset) :
    offsetFrom o cs (u + r.1) r.2 = r.1 := by
  induction cs generalizing o f with
  | nil =>
    subst hr
    rfl
  | cons c rest ih =>
    rcases Int.lt_or_le u c.since with h | h
    · rw [readingFrom_of_lt h] at hr
      subst hr
      have hbefore : u + o < c.since + (if f then min o c.offset else max o c.offset) := by
        split
        · next hf => exact hfold hf c rfl
        · omega
      rw [offsetFrom, if_pos hbefore]
    · rw [readingFrom_of_le h] at hr
      have hafter := wall_after_change hapart h hr
      rw [offsetFrom, if_neg (by omega)]
      refine ih hapart.2 hr fun hf d hd => ?_
      obtain ⟨-, hwalls⟩ := hapart.1 d hd
      have hsoon : u - c.since < o - c.offset := of_decide_eq_true hf
      omega

/-- Before an instant without a fold, the wall was earlier. -/
theorem wall_lt_of_lt (hapart : Apart o cs) (hr : readingFrom o f cs u = (r.1, false))
    (h : e < u) : e + (readingFrom o g cs e).1 < u + r.1 := by
  induction cs generalizing o f g with
  | nil =>
    cases hr
    rw [readingFrom]
    omega
  | cons c rest ih =>
    rcases Int.lt_or_le u c.since with hu | hu
    · rw [readingFrom_of_lt hu] at hr
      cases hr
      rw [readingFrom_of_lt (Int.lt_trans h hu)]
      omega
    · rw [readingFrom_of_le hu] at hr
      rcases Int.lt_or_le e c.since with he | he
      · have hafter := wall_after_change hapart hu hr
        rw [readingFrom_of_lt he]
        simp only [Bool.false_eq_true, if_false] at hafter
        omega
      · rw [readingFrom_of_le he]
        exact ih hapart.2 hr

/-- A wall time that is read with a fold has been read without one before: in the time up to a
change, or after it. -/
theorem read_before (hapart : Apart o (c :: rest)) (h : c.since ≤ u)
    (hr : readingFrom c.offset (u - c.since < o - c.offset) rest u = (r.1, true)) :
    ∃ e < u, ∃ off, e + off = u + r.1 ∧ (e < c.since ∧ off = o ∨ c.since ≤ e ∧
      readingFrom c.offset (e - c.since < o - c.offset) rest e = (off, false)) := by
  induction rest generalizing o c with
  | nil =>
    rw [readingFrom] at hr
    obtain ⟨hoff, hf⟩ := Prod.mk.inj hr
    have hsoon : u - c.since < o - c.offset := of_decide_eq_true hf
    exact ⟨u + c.offset - o, by omega, o, by omega, .inl ⟨by omega, rfl⟩⟩
  | cons d rest ih =>
    obtain ⟨hnext, hrest⟩ := hapart
    obtain ⟨hlater, hwalls⟩ := hnext d rfl
    rcases Int.lt_or_le u d.since with hd | hd
    · rw [readingFrom_of_lt hd] at hr
      obtain ⟨hoff, hf⟩ := Prod.mk.inj hr
      have hsoon : u - c.since < o - c.offset := of_decide_eq_true hf
      exact ⟨u + c.offset - o, by omega, o, by omega, .inl ⟨by omega, rfl⟩⟩
    · rw [readingFrom_of_le hd] at hr
      have hafter := wall_after_change hrest hd hr
      simp only [if_true] at hafter
      obtain ⟨e, heu, off, hwall, hcase⟩ := ih hrest hd hr
      refine ⟨e, heu, off, hwall, .inr ?_⟩
      obtain ⟨hbefore, rfl⟩ | ⟨hlate, hread⟩ := hcase
      · have hpast : ¬ e - c.since < o - c.offset := by omega
        refine ⟨by omega, ?_⟩
        rw [readingFrom_of_lt hbefore, decide_eq_false hpast]
      · refine ⟨by omega, ?_⟩
        rw [readingFrom_of_le hlate, hread]

theorem readingFrom_mem : (readingFrom o f cs u).1 ∈ o :: cs.map Change.offset := by
  induction cs generalizing o f with
  | nil => exact List.mem_singleton_self o
  | cons c rest ih =>
    rcases Int.lt_or_le u c.since with h | h
    · rw [readingFrom_of_lt h]
      exact List.mem_cons_self
    · rw [readingFrom_of_le h]
      exact List.mem_cons_of_mem o ih

theorem offsetFrom_mem {w : Int} : offsetFrom o cs w f ∈ o :: cs.map Change.offset := by
  induction cs generalizing o with
  | nil => exact List.mem_singleton_self o
  | cons c rest ih =>
    by_cases h : w < c.since + (if f then min o c.offset else max o c.offset)
    · rw [offsetFrom, if_pos h]
      exact List.mem_cons_self
    · rw [offsetFrom, if_neg h]
      exact List.mem_cons_of_mem o ih

end Changes

namespace ZoneRules

variable (z : ZoneRules)

/-- The local time of an instant. -/
def localTime (u : Int) : LocalSecond :=
  let r := readingFrom z.first false z.changes u
  ⟨u + r.1, r.2⟩

def utcoffset (t : LocalSecond) : Int := offsetFrom z.first z.changes t.wall t.fold

variable {z : ZoneRules} {u e : Int}

theorem wall_sub_utcoffset (z : ZoneRules) (u : Int) :
    (z.localTime u).wall - z.utcoffset (z.localTime u) = u := by
  have h := offsetFrom_reading z.apart (u := u) (f := false) rfl nofun
  rw [utcoffset, localTime, h, Int.add_sub_cancel]

theorem utcoffset_bounded (z : ZoneRules) (t : LocalSecond) :
    -86400 < z.utcoffset t ∧ z.utcoffset t < 86400 :=
  z.bounded _ offsetFrom_mem

theorem wall_bounded (z : ZoneRules) (u : Int) :
    u - 86400 < (z.localTime u).wall ∧ (z.localTime u).wall < u + 86400 := by
  have h := z.bounded _ (readingFrom_mem (f := false) (u := u))
  simp only [localTime]
  omega

theorem wall_lt (hfold : (z.localTime u).fold = false) (h : e < u) :
    (z.localTime e).wall < (z.localTime u).wall :=
  wall_lt_of_lt z.apart (Prod.ext rfl hfold) h

/-- A repeated wall time was read before. -/
theorem exists_first (hfold : (z.localTime u).fold = true) :
    ∃ e < u, z.localTime e = ⟨(z.localTime u).wall, false⟩ := by
  have hchanges : z.changes ≠ [] := by
    intro hnil
    rw [localTime, hnil, readingFrom] at hfold
    cases hfold
  obtain ⟨c, rest, hsplit⟩ := List.exists_cons_of_ne_nil hchanges
  have hapart : Apart z.first (c :: rest) := hsplit ▸ z.apart
  have hreading : readingFrom z.first false (c :: rest) u =
      ((readingFrom z.first false z.changes u).1, true) := hsplit ▸ Prod.ext rfl hfold
  rcases Int.lt_or_le u c.since with hu | hu
  · rw [readingFrom_of_lt hu] at hreading
    cases (Prod.mk.inj hreading).2
  · rw [readingFrom_of_le hu] at hreading
    obtain ⟨e, heu, off, hwall, hcase⟩ := read_before hapart hu hreading
    refine ⟨e, heu, ?_⟩
    have hread : readingFrom z.first false (c :: rest) e = (off, false) := by
      obtain ⟨hbefore, rfl⟩ | ⟨hlate, hread⟩ := hcase
      · exact readingFrom_of_lt hbefore
      · rw [readingFrom_of_le hlate, hread]
    rw [localTime, hsplit, hread]
    exact LocalSecond.mk.injEq .. ▸ ⟨hwall.trans (by rw [localTime]), rfl⟩

end ZoneRules

end Foundation
