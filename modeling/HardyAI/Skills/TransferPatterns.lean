import HardyAI.Skills.CanonicalForm
import HardyAI.Skills.Descriptors

/-! The pattern that is compiled for a property, and what reading it back takes. -/

open Foundation Foundation.Json

namespace HardyAI.Skills

section Escapes

variable {name s : Str}

theorem escapeName_cons (c : CodePoint) (s : Str) : escapeName (c :: s) =
    (if c = tilde then text "~0" else if c = slash then text "~1" else [c]) ++ escapeName s :=
  List.flatMap_cons

theorem escapeName_tilde (s : Str) :
    escapeName (tilde :: s) = tilde :: codePoint '0' :: escapeName s := by
  rw [escapeName_cons, if_pos rfl]
  rfl

theorem escapeName_slash (s : Str) :
    escapeName (slash :: s) = tilde :: codePoint '1' :: escapeName s := by
  rw [escapeName_cons, if_neg (by decide), if_pos rfl]
  rfl

theorem escapeName_plain {c : CodePoint} (htilde : c ≠ tilde) (hslash : c ≠ slash) (s : Str) :
    escapeName (c :: s) = c :: escapeName s := by
  rw [escapeName_cons, if_neg htilde, if_neg hslash]
  rfl

/-- The characters of a name as the escapes tell them apart. -/
theorem escape_cases (c : CodePoint) : c = tilde ∨ c = slash ∨ c ≠ tilde ∧ c ≠ slash := by
  by_cases htilde : c = tilde
  · exact .inl htilde
  · by_cases hslash : c = slash
    · exact .inr (.inl hslash)
    · exact .inr (.inr ⟨htilde, hslash⟩)

theorem slash_notMem_escapeName (name : Str) : slash ∉ escapeName name := by
  induction name with
  | nil => exact List.not_mem_nil
  | cons c s ih =>
    rcases escape_cases c with rfl | rfl | ⟨htilde, hslash⟩
    · rw [escapeName_tilde]
      simp only [List.mem_cons, ih, or_false]
      decide
    · rw [escapeName_slash]
      simp only [List.mem_cons, ih, or_false]
      decide
    · rw [escapeName_plain htilde hslash]
      simp only [List.mem_cons, ih, or_false]
      exact hslash.symm

theorem decodeEscapes_cons {c : CodePoint} (h : c ≠ tilde) (s : Str) :
    decodeEscapes (c :: s) = (decodeEscapes s).map (c :: ·) := by
  cases s with
  | nil =>
    simp only [decodeEscapes, if_pos h]
    rfl
  | cons d rest => rw [decodeEscapes, if_pos h]

theorem decodeEscapes_escapeName (name : Str) : decodeEscapes (escapeName name) = .ok name := by
  induction name with
  | nil => rfl
  | cons c s ih =>
    rcases escape_cases c with rfl | rfl | ⟨htilde, hslash⟩
    · rw [escapeName_tilde, decodeEscapes, if_neg (by decide), if_pos rfl, ih]
      rfl
    · rw [escapeName_slash, decodeEscapes, if_neg (by decide), if_neg (by decide), if_pos rfl, ih]
      rfl
    · rw [escapeName_plain htilde hslash, decodeEscapes_cons htilde, ih]
      rfl

theorem escapeName_inj {other : Str} (h : escapeName name = escapeName other) : name = other := by
  have hdecoded := decodeEscapes_escapeName name
  rw [h, decodeEscapes_escapeName] at hdecoded
  exact (Except.ok.inj hdecoded).symm

theorem splitOn_of_notMem {c : CodePoint} (h : c ∉ s) : splitOn c s = [s] := by
  induction s with
  | nil => rfl
  | cons x s ih =>
    rw [List.mem_cons, not_or] at h
    rw [splitOn, if_neg (Ne.symm h.1), ih h.2]

theorem hasPart_cons (c : CodePoint) (s part : Str) :
    hasPart (c :: s) part = (startsWith (c :: s) part || hasPart s part) := rfl

theorem startsWith_stars (c : CodePoint) (s : Str) :
    startsWith (c :: s) "**" = (decide (c = codePoint '*') && startsWith s "*") := by
  show List.isPrefixOf (codePoint '*' :: [codePoint '*']) (c :: s) = _
  rw [List.isPrefixOf_cons_cons, Bool.beq_eq_decide_eq]
  congr 1
  exact decide_eq_decide.2 eq_comm

theorem startsWith_star_escapeName (name : Str) :
    startsWith (escapeName name) "*" = startsWith name "*" := by
  have hhead : ∀ (c : CodePoint) (s : Str), startsWith (c :: s) "*" = decide (c = codePoint '*') := by
    intro c s
    show List.isPrefixOf [codePoint '*'] (c :: s) = _
    rw [List.isPrefixOf_cons_cons, List.isPrefixOf_nil_left, Bool.and_true, Bool.beq_eq_decide_eq]
    exact decide_eq_decide.2 eq_comm
  cases name with
  | nil => rfl
  | cons c s =>
    rcases escape_cases c with rfl | rfl | ⟨htilde, hslash⟩
    · rw [escapeName_tilde, hhead, hhead]
    · rw [escapeName_slash, hhead, hhead]
      decide
    · rw [escapeName_plain htilde hslash, hhead, hhead]

/-- An escape brings no star and separates no two of them. -/
theorem hasPart_stars_escapeName (name : Str) :
    hasPart (escapeName name) "**" = hasPart name "**" := by
  induction name with
  | nil => rfl
  | cons c s ih =>
    rcases escape_cases c with rfl | rfl | ⟨htilde, hslash⟩
    · have hzero : decide (codePoint '0' = codePoint '*') = false := by decide
      have htilde : decide (tilde = codePoint '*') = false := by decide
      rw [escapeName_tilde, hasPart_cons, hasPart_cons, hasPart_cons, startsWith_stars,
        startsWith_stars, startsWith_stars, hzero, htilde, ih]
      rfl
    · have hone : decide (codePoint '1' = codePoint '*') = false := by decide
      have htilde : decide (tilde = codePoint '*') = false := by decide
      have hslash : decide (slash = codePoint '*') = false := by decide
      rw [escapeName_slash, hasPart_cons, hasPart_cons, hasPart_cons, startsWith_stars,
        startsWith_stars, startsWith_stars, hone, htilde, hslash, ih]
      rfl
    · rw [escapeName_plain htilde hslash, hasPart_cons, hasPart_cons, startsWith_stars,
        startsWith_stars, startsWith_star_escapeName, ih]

end Escapes

section Patterns

/-- What the pointers of patterns take for the name of a property. -/
def pointable (name : Str) : Bool :=
  name ≠ star && name ≠ text "-" && !hasPart name "**"

theorem dash_suffix_iff {s : Str} (h : slash ∉ s) :
    (text "/-").isSuffixOf (slash :: s) = true ↔ s = text "-" := by
  rw [List.isSuffixOf_iff_suffix, List.suffix_cons_iff]
  constructor
  · rintro (heq | hsuffix)
    · exact (List.cons.inj heq).2.symm
    · exact absurd (hsuffix.subset List.mem_cons_self) h
  · rintro rfl
    exact .inl rfl

theorem decodePointer_escapeName {name : Str} (hname : name ≠ []) {segments : List Str} :
    decodePointer (text "/" ++ escapeName name) = .ok segments ↔
      segments = [name] ∧ name ≠ text "-" ∧ hasPart name "**" = false := by
  have hnil : escapeName name ≠ [] := fun h => hname (escapeName_inj h)
  have hdash : escapeName name = text "-" ↔ name = text "-" := by
    have htext : escapeName (text "-") = text "-" := by decide
    exact ⟨fun h => escapeName_inj (h.trans htext.symm), fun h => h ▸ htext⟩
  have hpattern : text "/" ++ escapeName name = slash :: escapeName name := rfl
  have hstart : startsWith (slash :: escapeName name) "/" = true := by
    show List.isPrefixOf [slash] (slash :: escapeName name) = true
    rw [List.isPrefixOf_cons_cons, List.isPrefixOf_nil_left]
    rfl
  have hhash : startsWith (slash :: escapeName name) "#" = false := by
    show List.isPrefixOf [codePoint '#'] (slash :: escapeName name) = false
    rw [List.isPrefixOf_cons_cons]
    rfl
  have hlone : slash :: escapeName name ≠ text "/" := fun h => hnil (List.cons.inj h).2
  have hparts : hasPart (slash :: escapeName name) "**" = hasPart name "**" := by
    rw [hasPart_cons, startsWith_stars, hasPart_stars_escapeName]
    rfl
  have hraw : rawSegments (slash :: escapeName name) = [escapeName name] := by
    rw [rawSegments, List.drop_one, List.tail_cons,
      splitOn_of_notMem (slash_notMem_escapeName name)]
  have hsuffix : (text "/-").isSuffixOf (slash :: escapeName name) = decide (name = text "-") := by
    rw [Bool.eq_iff_iff, dash_suffix_iff (slash_notMem_escapeName name), hdash, decide_eq_true_eq]
  simp only [decodePointer, bind_eq_ok, require_eq_ok, hpattern, hraw, hstart, hhash, hparts,
    hsuffix, patternSegment, decodeEscapes_escapeName, List.mapM_cons, List.mapM_nil, pure,
    Except.pure, Except.ok.injEq]
  constructor
  · rintro ⟨-, -, -, hmarks, _, ⟨_, rfl, -, -, rfl⟩, _, rfl, rfl⟩
    simp only [Bool.not_false, Bool.true_and, Bool.and_eq_true, Bool.not_eq_true',
      decide_eq_false_iff_not] at hmarks
    exact ⟨rfl, hmarks⟩
  · rintro ⟨rfl, hname', hstars⟩
    have hall : name ∉ ([[], text "-", text "**"] : List Str) := by
      have hpart : name ≠ text "**" := by
        rintro rfl
        exact absurd hstars (by decide)
      simp [hname, hname', hpart]
    refine ⟨(), by simpa using hlone, (), by simp [hname', hstars], name,
      ⟨name, rfl, (), decide_eq_true hall, rfl⟩, [], rfl, rfl⟩

end Patterns

end HardyAI.Skills
