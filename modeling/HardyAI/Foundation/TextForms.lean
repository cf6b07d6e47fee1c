import HardyAI.Foundation.Blanks
import HardyAI.Foundation.Json

/-! Texts that trimming, squeezing and case folding leave as they are. -/

namespace Foundation

section Compact

/-- Every blank is a space, and the next character is none. -/
def Squeezed : Str → Prop
  | [] => True
  | [c] => isSpace c = true → c = 0x20
  | c :: d :: rest =>
    (isSpace c = true → c = 0x20 ∧ isSpace d = false) ∧ Squeezed (d :: rest)

theorem Squeezed.tail {c : CodePoint} {s : Str} (h : Squeezed (c :: s)) : Squeezed s := by
  cases s with
  | nil => trivial
  | cons d rest => exact h.2

theorem Squeezed.suffix {s t : Str} (h : Squeezed t) (hst : s <:+ t) : Squeezed s := by
  obtain ⟨front, rfl⟩ := hst
  induction front with
  | nil => exact h
  | cons c front ih => exact ih h.tail

theorem Squeezed.front {s t : Str} (h : Squeezed (s ++ t)) : Squeezed s := by
  induction s with
  | nil => trivial
  | cons c s ih =>
    cases s with
    | nil =>
      cases t with
      | nil => exact h
      | cons d rest => exact fun hc => (h.1 hc).1
    | cons d rest => exact ⟨h.1, ih h.2⟩

theorem squeezed_squeeze (s : Str) : Squeezed (squeeze s) := by
  induction s using squeeze.induct with
  | case1 => trivial
  | case2 c h =>
    rw [squeeze, if_pos h]
    exact fun _ => rfl
  | case3 c h =>
    rw [squeeze, if_neg h]
    exact fun hc => absurd hc h
  | case4 c d rest hc hd ih => rwa [squeeze, if_pos hc, if_pos hd]
  | case5 c d rest hc hd ih =>
    rw [Bool.not_eq_true] at hd
    rw [squeeze, if_pos hc, hd, if_neg Bool.false_ne_true]
    rw [squeeze_cons hd] at ih ⊢
    exact ⟨fun _ => ⟨rfl, hd⟩, ih⟩
  | case6 c d rest hc ih =>
    rw [squeeze, if_neg hc]
    cases hrest : squeeze (d :: rest) with
    | nil => exact absurd hrest (squeeze_ne_nil d rest)
    | cons e tail =>
      rw [hrest] at ih
      exact ⟨fun hspace => absurd hspace hc, ih⟩

theorem squeeze_of_squeezed {s : Str} (h : Squeezed s) : squeeze s = s := by
  induction s with
  | nil => rfl
  | cons c s ih =>
    cases s with
    | nil =>
      by_cases hc : isSpace c = true
      · rw [h hc]
        decide
      · rw [squeeze, if_neg hc]
    | cons d rest =>
      by_cases hc : isSpace c = true
      · obtain ⟨rfl, hd⟩ := h.1 hc
        rw [squeeze_blank hd, ih h.2]
      · rw [Bool.not_eq_true] at hc
        rw [squeeze_cons hc, ih h.2]

theorem strip_infix (s : Str) : ∃ front back, s = front ++ (strip s ++ back) := by
  obtain ⟨front, hfront⟩ := List.dropWhile_suffix (l := s) isSpace
  obtain ⟨back, hback⟩ := List.dropWhile_suffix (l := (s.dropWhile isSpace).reverse) isSpace
  refine ⟨front, back.reverse, ?_⟩
  have hrest : s.dropWhile isSpace = strip s ++ back.reverse := by
    rw [strip, ← List.reverse_append, hback, List.reverse_reverse]
  rw [← hrest, hfront]

theorem Squeezed.strip {s : Str} (h : Squeezed s) : Squeezed (strip s) := by
  obtain ⟨front, back, hs⟩ := strip_infix s
  rw [hs] at h
  exact (h.suffix (List.suffix_append front _)).front

/-- `re.sub(r"\s+", " ", s).strip()`. -/
def compact (s : Str) : Str := strip (squeeze s)

/-- A compact text is left alone. -/
theorem compact_of_compact {s : Str} (hsqueezed : Squeezed s) (hstrip : strip s = s) :
    compact s = s := by
  rw [compact, squeeze_of_squeezed hsqueezed, hstrip]

theorem squeezed_compact (s : Str) : Squeezed (compact s) := (squeezed_squeeze s).strip

theorem strip_compact (s : Str) : strip (compact s) = compact s := strip_strip _

theorem mem_squeeze {s : Str} {c : CodePoint} (h : c ∈ squeeze s) : c ∈ s ∨ c = 0x20 := by
  induction s using squeeze.induct with
  | case1 => exact .inl h
  | case2 d hd =>
    rw [squeeze, if_pos hd] at h
    exact .inr (List.mem_singleton.1 h)
  | case3 d hd =>
    rw [squeeze, if_neg hd] at h
    exact .inl h
  | case4 d e rest hd he ih =>
    rw [squeeze, if_pos hd, if_pos he] at h
    exact (ih h).imp_left (List.mem_cons_of_mem d)
  | case5 d e rest hd he ih =>
    rw [squeeze, if_pos hd, if_neg he] at h
    rcases List.mem_append.1 h with h | h
    · exact .inr (List.mem_singleton.1 h)
    · exact (ih h).imp_left (List.mem_cons_of_mem d)
  | case6 d e rest hd ih =>
    rw [squeeze, if_neg hd] at h
    rcases List.mem_cons.1 h with rfl | h
    · exact .inl List.mem_cons_self
    · exact (ih h).imp_left (List.mem_cons_of_mem d)

theorem mem_compact {s : Str} {c : CodePoint} (h : c ∈ compact s) : c ∈ s ∨ c = 0x20 := by
  obtain ⟨front, back, hs⟩ := strip_infix (squeeze s)
  refine mem_squeeze ?_
  rw [hs]
  exact List.mem_append_right _ (List.mem_append_left _ h)

theorem compact_compact (s : Str) : compact (compact s) = compact s :=
  compact_of_compact (squeezed_compact s) (strip_compact s)

end Compact

namespace Json

section Folding

variable [PythonText]

/-- A text that trimming and case folding leave as it is. -/
structure Folded (s : Str) : Prop where
  ascii : isAscii s = true
  lower : ∀ c ∈ s, asciiLower c = c
  solid : ∀ c ∈ s, isSpace c = false

omit [PythonText] in
theorem Folded.strip {s : Str} (h : Folded s) : strip s = s := strip_of_forall h.solid

theorem Folded.casefold {s : Str} (h : Folded s) : PythonText.casefold s = s := by
  rw [PythonText.casefold_ascii s h.ascii]
  exact (List.map_congr_left h.lower).trans (List.map_id s)

omit [PythonText] in
theorem folded_of_forall {s : Str} (h : ∀ c ∈ s, c.val < 128 ∧ asciiLower c = c ∧
    isSpace c = false) : Folded s where
  ascii := List.all_eq_true.2 fun c hc => by simpa using (h c hc).1
  lower c hc := (h c hc).2.1
  solid c hc := (h c hc).2.2

/-- The same, computed. -/
def isFolded (s : Str) : Bool := s.all fun c => c.val < 128 && asciiLower c = c && !isSpace c

omit [PythonText] in
theorem folded_of_isFolded {s : Str} (h : isFolded s = true) : Folded s := by
  refine folded_of_forall fun c hc => ?_
  simpa [and_assoc] using List.all_eq_true.1 h c hc

/-- Full case folding: every character has a folding of its own, which is not empty, is folded
itself and has no blanks where the character is none. -/
structure FoldLaws : Prop where
  append (s t : Str) : PythonText.casefold (s ++ t) = PythonText.casefold s ++ PythonText.casefold t
  fixed (c d : CodePoint) : d ∈ PythonText.casefold [c] → PythonText.casefold [d] = [d]
  solid (c : CodePoint) : isSpace c = false → PythonText.casefold [c] ≠ [] ∧
    ∀ d ∈ PythonText.casefold [c], isSpace d = false

omit [PythonText] in
theorem isSpace_letter : ∀ n : Fin 26, isSpace ⟨n.val + 97, by omega⟩ = false := by decide +kernel

omit [PythonText] in
theorem foldLaws_asciiText : @FoldLaws asciiText :=
  @FoldLaws.mk asciiText (fun _ _ => List.map_append)
    (by
      intro c d hd
      obtain rfl : d = asciiLower c := by simpa [PythonText.casefold] using hd
      have hlower : asciiLower (asciiLower c) = asciiLower c := by
        unfold asciiLower
        split
        · split
          · next h h' =>
            have hval : 65 ≤ c.val + 32 ∧ c.val + 32 ≤ 90 := h'
            omega
          · rfl
        · rfl
      simpa [PythonText.casefold] using hlower)
    (by
      intro c hc
      refine ⟨by simp [PythonText.casefold], fun d hd => ?_⟩
      obtain rfl : d = asciiLower c := by simpa [PythonText.casefold] using hd
      unfold asciiLower
      split
      · next h =>
        have hletter := isSpace_letter ⟨c.val - 65, by omega⟩
        have hsame : (⟨c.val - 65 + 97, by omega⟩ : CodePoint) = ⟨c.val + 32, by omega⟩ :=
          Fin.ext (by show c.val - 65 + 97 = c.val + 32; omega)
        rw [← hsame]
        exact hletter
      · exact hc)

/-- A text in which every character is folded. -/
def Fixed (s : Str) : Prop := ∀ c ∈ s, PythonText.casefold [c] = [c]

variable (laws : FoldLaws)
include laws

theorem casefold_of_fixed {s : Str} (h : Fixed s) : PythonText.casefold s = s := by
  induction s with
  | nil => exact PythonText.casefold_ascii [] rfl
  | cons c s ih =>
    rw [← List.singleton_append, laws.append, h c List.mem_cons_self,
      ih fun d hd => h d (List.mem_cons_of_mem c hd)]

theorem fixed_casefold (s : Str) : Fixed (PythonText.casefold s) := by
  induction s with
  | nil =>
    rw [PythonText.casefold_ascii [] rfl]
    exact fun d hd => absurd hd List.not_mem_nil
  | cons c s ih =>
    rw [← List.singleton_append, laws.append]
    intro d hd
    rcases List.mem_append.1 hd with hd | hd
    · exact laws.fixed c d hd
    · exact ih d hd

theorem casefold_casefold (s : Str) :
    PythonText.casefold (PythonText.casefold s) = PythonText.casefold s :=
  casefold_of_fixed laws (fixed_casefold laws s)

/-- The ends of a folded text are blanks only where those of the text are. -/
theorem strip_casefold {s : Str} (h : strip s = s) :
    strip (PythonText.casefold s) = PythonText.casefold s := by
  refine strip_of_ends ?_ ?_
  · cases s with
    | nil =>
      rw [PythonText.casefold_ascii [] rfl]
      exact fun c hc => absurd hc (Option.not_mem_none c)
    | cons c s =>
      have hc : isSpace c = false := by
        refine head_strip (c :: s) c ?_
        rw [h]
        rfl
      obtain ⟨hne, hsolid⟩ := laws.solid c hc
      rw [← List.singleton_append, laws.append]
      intro d hd
      rw [List.head?_append_of_ne_nil _ hne] at hd
      exact hsolid d (List.mem_of_mem_head? hd)
  · cases hlast : s.getLast? with
    | none =>
      rw [List.getLast?_eq_none_iff.1 hlast, PythonText.casefold_ascii [] rfl]
      exact fun c hc => absurd hc (Option.not_mem_none c)
    | some c =>
      have hc : isSpace c = false := by
        refine getLast_strip s c ?_
        rw [h, hlast]
        rfl
      obtain ⟨front, rfl⟩ := List.getLast?_eq_some_iff.1 hlast
      obtain ⟨hne, hsolid⟩ := laws.solid c hc
      rw [laws.append]
      intro d hd
      rw [List.getLast?_append_of_ne_nil _ hne] at hd
      exact hsolid d (List.mem_of_getLast? hd)

end Folding

end Json

end Foundation
