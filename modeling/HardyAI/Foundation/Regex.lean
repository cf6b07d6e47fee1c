import HardyAI.Foundation.Text
import Mathlib.Tactic.Common

/-! Regular expressions over texts with word boundaries, and a search that finds a match
wherever there is one. -/

namespace Foundation

/-- Some characters count as parts of a word, among ASCII the letters, digits and underscores. -/
class WordTable where
  isWord : CodePoint → Bool
  isWord_ascii (c : CodePoint) : c.val < 128 → isWord c =
    ((0x30 ≤ c.val && c.val ≤ 0x39) || (0x41 ≤ c.val && c.val ≤ 0x5A) || c.val = 0x5F ||
      (0x61 ≤ c.val && c.val ≤ 0x7A))

@[reducible] def asciiWords : WordTable where
  isWord c := (0x30 ≤ c.val && c.val ≤ 0x39) || (0x41 ≤ c.val && c.val ≤ 0x5A) || c.val = 0x5F ||
    (0x61 ≤ c.val && c.val ≤ 0x7A)
  isWord_ascii _ _ := rfl

inductive Regex
  /-- One of the words, `(?:…|…)`. -/
  | oneOf (words : List Str)
  /-- `\b`. -/
  | edge
  | set (p : CodePoint → Bool)
  /-- `[…]*`. -/
  | many (p : CodePoint → Bool)
  | seq (r s : Regex)
  | alt (r s : Regex)

namespace Regex

variable [WordTable]

def wordChar (c : Option CodePoint) : Bool := c.any WordTable.isWord

/-- Exactly one of two neighbours is part of a word. -/
def isEdge (before after : Option CodePoint) : Bool := wordChar before != wordChar after

/-- The character before what follows a word. -/
def lastOf (before : Option CodePoint) (w : Str) : Option CodePoint := w.getLast?.or before

omit [WordTable] in
@[simp] theorem lastOf_nil (before : Option CodePoint) : lastOf before [] = before := rfl

omit [WordTable] in
theorem lastOf_append (before : Option CodePoint) (u v : Str) :
    lastOf before (u ++ v) = lastOf (lastOf before u) v := by
  rw [lastOf, lastOf, lastOf, List.getLast?_append, Option.or_assoc]

omit [WordTable] in
theorem lastOf_getLast? (u v : Str) : lastOf u.getLast? v = (u ++ v).getLast? := by
  rw [lastOf, List.getLast?_append]

/-- The word `w` matches between a last character `before` and a text `after`. -/
def Spans : Regex → Option CodePoint → Str → Str → Prop
  | .oneOf words, _, w, _ => w ∈ words
  | .edge, before, w, after => w = [] ∧ isEdge before after.head? = true
  | .set p, _, w, _ => ∃ c, w = [c] ∧ p c = true
  | .many p, _, w, _ => ∀ c ∈ w, p c = true
  | .seq r s, before, w, after => ∃ u v, w = u ++ v ∧ Spans r before u (v ++ after) ∧
      Spans s (lastOf before u) v after
  | .alt r s, before, w, after => Spans r before w after ∨ Spans s before w after

/-- A place of the text: the character before it, and what is left. -/
abbrev Place := Option CodePoint × Str

def manyEnds (p : CodePoint → Bool) : Option CodePoint → Str → List Place
  | before, [] => [(before, [])]
  | before, c :: rest => (before, c :: rest) :: if p c then manyEnds p (some c) rest else []

/-- The places at which a match that begins here can end. -/
def ends : Regex → Option CodePoint → Str → List Place
  | .oneOf words, before, s => (words.filter fun w => w.isPrefixOf s).map fun w =>
      (lastOf before w, s.drop w.length)
  | .edge, before, s => if isEdge before s.head? then [(before, s)] else []
  | .set p, _, s =>
    match s with
    | c :: rest => if p c then [(some c, rest)] else []
    | [] => []
  | .many p, before, s => manyEnds p before s
  | .seq r t, before, s => (ends r before s).flatMap fun place => ends t place.1 place.2
  | .alt r t, before, s => ends r before s ++ ends t before s

def searchFrom (r : Regex) : Option CodePoint → Str → Bool
  | before, [] => !(ends r before []).isEmpty
  | before, c :: rest => !(ends r before (c :: rest)).isEmpty || searchFrom r (some c) rest

/-- `re.search`, whether there is a match. -/
def search (r : Regex) (s : Str) : Bool := searchFrom r none s

variable {before : Option CodePoint} {s : Str} {place : Place}

omit [WordTable] in
theorem mem_manyEnds {p : CodePoint → Bool} : place ∈ manyEnds p before s ↔
    ∃ w, s = w ++ place.2 ∧ place.1 = lastOf before w ∧ ∀ c ∈ w, p c = true := by
  induction s generalizing before with
  | nil =>
    rw [manyEnds, List.mem_singleton]
    constructor
    · rintro rfl
      exact ⟨[], rfl, rfl, fun c hc => absurd hc List.not_mem_nil⟩
    · rintro ⟨w, hs, hlast, -⟩
      obtain ⟨rfl, hrest⟩ := List.append_eq_nil_iff.1 hs.symm
      exact Prod.ext hlast hrest
  | cons c rest ih =>
    rw [manyEnds, List.mem_cons]
    constructor
    · rintro (rfl | h)
      · exact ⟨[], rfl, rfl, fun c hc => absurd hc List.not_mem_nil⟩
      · split at h
        · next hc =>
          obtain ⟨w, hs, hlast, hw⟩ := ih.1 h
          refine ⟨c :: w, by rw [hs, List.cons_append], ?_, ?_⟩
          · rw [hlast, ← List.singleton_append, lastOf_append]
            rfl
          · exact List.forall_mem_cons.2 ⟨hc, hw⟩
        · cases h
    · rintro ⟨w, hs, hlast, hw⟩
      cases w with
      | nil => exact .inl (Prod.ext hlast hs.symm)
      | cons d w =>
        obtain ⟨rfl, hrest⟩ := List.cons.inj hs
        rw [List.forall_mem_cons] at hw
        rw [← List.singleton_append, lastOf_append] at hlast
        exact .inr (by rw [if_pos hw.1]; exact ih.2 ⟨w, hrest, hlast, hw.2⟩)

theorem mem_ends {r : Regex} : place ∈ ends r before s ↔
    ∃ w, s = w ++ place.2 ∧ place.1 = lastOf before w ∧ Spans r before w place.2 := by
  induction r generalizing before s place with
  | oneOf words =>
    simp only [ends, List.mem_map, List.mem_filter, List.isPrefixOf_iff_prefix]
    constructor
    · rintro ⟨w, ⟨hw, rest, rfl⟩, rfl⟩
      exact ⟨w, by rw [List.drop_left], rfl, hw⟩
    · rintro ⟨w, rfl, hlast, hw⟩
      exact ⟨w, ⟨hw, List.prefix_append _ _⟩, Prod.ext hlast.symm List.drop_left⟩
  | edge =>
    rw [ends]
    constructor
    · intro h
      split at h
      · next hedge =>
        obtain rfl := List.mem_singleton.1 h
        exact ⟨[], rfl, rfl, rfl, hedge⟩
      · cases h
    · rintro ⟨w, rfl, hlast, rfl, hedge⟩
      rw [List.nil_append, if_pos hedge, List.mem_singleton]
      exact Prod.ext hlast rfl
  | set p =>
    cases s with
    | nil =>
      simp only [ends, List.not_mem_nil, false_iff]
      rintro ⟨w, hs, -, c, rfl, -⟩
      cases hs
    | cons c rest =>
      rw [ends]
      constructor
      · intro h
        split at h
        · next hc =>
          obtain rfl := List.mem_singleton.1 h
          exact ⟨[c], rfl, rfl, c, rfl, hc⟩
        · cases h
      · rintro ⟨w, hs, hlast, d, rfl, hd⟩
        obtain ⟨rfl, hrest⟩ := List.cons.inj hs
        rw [if_pos hd, List.mem_singleton]
        exact Prod.ext hlast hrest.symm
  | many p => exact mem_manyEnds
  | seq r t ihr iht =>
    rw [ends, List.mem_flatMap]
    constructor
    · rintro ⟨middle, hr, ht⟩
      obtain ⟨u, hs, hlast, hu⟩ := ihr.1 hr
      obtain ⟨v, hmiddle, hlast', hv⟩ := iht.1 ht
      refine ⟨u ++ v, by rw [hs, hmiddle, List.append_assoc], ?_, u, v, rfl, ?_, ?_⟩
      · rw [hlast', hlast, lastOf_append]
      · rwa [hmiddle] at hu
      · rwa [hlast] at hv
    · rintro ⟨w, rfl, hlast, u, v, rfl, hu, hv⟩
      refine ⟨(lastOf before u, v ++ place.2), ihr.2 ⟨u, by rw [List.append_assoc], rfl, hu⟩,
        iht.2 ⟨v, rfl, ?_, hv⟩⟩
      rw [hlast, lastOf_append]
  | alt r t ihr iht =>
    rw [ends, List.mem_append, ihr, iht]
    constructor
    · rintro (⟨w, hs, hlast, hw⟩ | ⟨w, hs, hlast, hw⟩)
      · exact ⟨w, hs, hlast, .inl hw⟩
      · exact ⟨w, hs, hlast, .inr hw⟩
    · rintro ⟨w, hs, hlast, hw | hw⟩
      · exact .inl ⟨w, hs, hlast, hw⟩
      · exact .inr ⟨w, hs, hlast, hw⟩

theorem ends_nonempty {r : Regex} : (!(ends r before s).isEmpty) = true ↔
    ∃ w after, s = w ++ after ∧ Spans r before w after := by
  rw [Bool.not_eq_true', List.isEmpty_eq_false_iff_exists_mem]
  constructor
  · rintro ⟨place, h⟩
    obtain ⟨w, hs, -, hw⟩ := mem_ends.1 h
    exact ⟨w, place.2, hs, hw⟩
  · rintro ⟨w, after, hs, hw⟩
    exact ⟨(lastOf before w, after), mem_ends.2 ⟨w, hs, rfl, hw⟩⟩

theorem searchFrom_iff {r : Regex} : searchFrom r before s = true ↔
    ∃ front w after, s = front ++ (w ++ after) ∧ Spans r (lastOf before front) w after := by
  induction s generalizing before with
  | nil =>
    rw [searchFrom, ends_nonempty]
    constructor
    · rintro ⟨w, after, hs, hw⟩
      exact ⟨[], w, after, hs, hw⟩
    · rintro ⟨front, w, after, hs, hw⟩
      obtain ⟨rfl, hrest⟩ := List.append_eq_nil_iff.1 hs.symm
      exact ⟨w, after, hrest.symm, hw⟩
  | cons c rest ih =>
    rw [searchFrom, Bool.or_eq_true, ends_nonempty, ih]
    constructor
    · rintro (⟨w, after, hs, hw⟩ | ⟨front, w, after, hs, hw⟩)
      · exact ⟨[], w, after, hs, hw⟩
      · refine ⟨c :: front, w, after, by rw [hs, List.cons_append], ?_⟩
        rwa [← List.singleton_append, lastOf_append]
    · rintro ⟨front, w, after, hs, hw⟩
      cases front with
      | nil => exact .inl ⟨w, after, hs, hw⟩
      | cons d front =>
        obtain ⟨rfl, hrest⟩ := List.cons.inj hs
        rw [← List.singleton_append, lastOf_append] at hw
        exact .inr ⟨front, w, after, hrest, hw⟩

/-- A search succeeds exactly where the text has a match. -/
theorem search_iff {r : Regex} : search r s = true ↔
    ∃ front w after, s = front ++ (w ++ after) ∧ Spans r front.getLast? w after := by
  rw [search, searchFrom_iff]
  have hlast (front : Str) : lastOf none front = front.getLast? := Option.or_none
  simp only [hlast]

end Regex

end Foundation
