import HardyAI.Foundation.Text

/-! Blanks at the ends of a text and runs of them inside. -/

namespace Foundation

section Strip

theorem strip_of_ends {s : Str} (hfirst : ∀ c ∈ s.head?, isSpace c = false)
    (hlast : ∀ c ∈ s.getLast?, isSpace c = false) : strip s = s := by
  have hfront : ∀ l : Str, (∀ c ∈ l.head?, isSpace c = false) → l.dropWhile isSpace = l := by
    intro l hl
    cases l with
    | nil => rfl
    | cons c l => rw [List.dropWhile_cons, hl c rfl]; rfl
  have hback : ∀ c ∈ s.reverse.head?, isSpace c = false := by
    rwa [List.head?_reverse]
  rw [strip, hfront s hfirst, hfront s.reverse hback, List.reverse_reverse]

theorem strip_of_forall {s : Str} (h : ∀ c ∈ s, isSpace c = false) : strip s = s :=
  strip_of_ends (fun c hc => h c (List.mem_of_mem_head? hc))
    (fun c hc => h c (List.mem_of_getLast? hc))

theorem head_strip (s : Str) : ∀ c ∈ (strip s).head?, isSpace c = false := by
  intro c hc
  cases hs : strip s with
  | nil =>
    rw [hs] at hc
    exact absurd hc (Option.not_mem_none c)
  | cons d rest =>
    have hsame := dropWhile_isSpace_strip s
    rw [hs] at hc hsame
    obtain rfl : d = c := Option.some.inj hc
    cases hd : isSpace d with
    | false => rfl
    | true =>
      rw [List.dropWhile_cons_of_pos hd] at hsame
      have hle := (List.dropWhile_suffix (l := rest) isSpace).length_le
      rw [hsame, List.length_cons] at hle
      omega

theorem getLast_strip (s : Str) : ∀ c ∈ (strip s).getLast?, isSpace c = false := by
  intro c hc
  rw [strip, List.getLast?_reverse] at hc
  cases hs : ((s.dropWhile isSpace).reverse.dropWhile isSpace) with
  | nil =>
    rw [hs] at hc
    exact absurd hc (Option.not_mem_none c)
  | cons d rest =>
    rw [hs] at hc
    obtain rfl : d = c := Option.some.inj hc
    have hnot := List.head?_dropWhile_not isSpace (s.dropWhile isSpace).reverse
    rw [hs] at hnot
    simpa using hnot

end Strip

section Runs

/-- `re.sub(r"\s+", " ", s)`. -/
@[grind =]
def squeeze : Str → Str
  | [] => []
  | [c] => if isSpace c then text " " else [c]
  | c :: d :: rest =>
    if isSpace c then if isSpace d then squeeze (d :: rest) else text " " ++ squeeze (d :: rest)
    else c :: squeeze (d :: rest)

theorem squeeze_cons {c : CodePoint} (h : isSpace c = false) (s : Str) :
    squeeze (c :: s) = c :: squeeze s := by
  cases s with
  | nil => simp [squeeze, h]
  | cons d rest => simp [squeeze, h]

theorem isSpace_blank : isSpace 0x20 = true := by decide

theorem squeeze_blank {c : CodePoint} (h : isSpace c = false) (s : Str) :
    squeeze (0x20 :: c :: s) = 0x20 :: squeeze (c :: s) := by
  rw [squeeze, if_pos isSpace_blank, h]
  rfl

theorem squeeze_ne_nil (c : CodePoint) (s : Str) : squeeze (c :: s) ≠ [] := by
  induction s generalizing c with
  | nil =>
    rw [squeeze]
    split <;> exact List.cons_ne_nil _ _
  | cons d rest ih =>
    rw [squeeze]
    split
    · split
      · exact ih d
      · exact List.cons_ne_nil _ _
    · exact List.cons_ne_nil _ _

/-- A text without runs of blanks is left as it is. -/
theorem squeeze_squeeze (s : Str) : squeeze (squeeze s) = squeeze s := by
  induction s using squeeze.induct with
  | case1 => rfl
  | case2 c h => rw [squeeze, if_pos h]; rfl
  | case3 c h =>
    rw [Bool.not_eq_true] at h
    rw [squeeze_cons h, squeeze_cons h]
    rfl
  | case4 c d rest hc hd ih => rw [squeeze, if_pos hc, if_pos hd, ih]
  | case5 c d rest hc hd ih =>
    rw [Bool.not_eq_true] at hd
    have hhead := squeeze_cons hd rest
    rw [squeeze, if_pos hc, hd, if_neg Bool.false_ne_true]
    show squeeze (0x20 :: squeeze (d :: rest)) = 0x20 :: squeeze (d :: rest)
    rw [hhead, squeeze_blank hd, ← hhead, ih]
  | case6 c d rest hc ih =>
    rw [Bool.not_eq_true] at hc
    rw [squeeze_cons hc, squeeze_cons hc, ih]

theorem head_squeeze {s : Str} (h : ∀ c ∈ s.head?, isSpace c = false) :
    ∀ c ∈ (squeeze s).head?, isSpace c = false := by
  cases s with
  | nil => exact h
  | cons c s =>
    rw [squeeze_cons (h c rfl)]
    exact h

theorem getLast_squeeze (s : Str) (h : ∀ c ∈ s.getLast?, isSpace c = false) :
    ∀ c ∈ (squeeze s).getLast?, isSpace c = false := by
  induction s using squeeze.induct with
  | case1 => exact h
  | case2 c hc =>
    have hnot := h c rfl
    rw [hc] at hnot
    cases hnot
  | case3 c hc => rwa [squeeze, if_neg hc]
  | case4 c d rest hc hd ih =>
    rw [squeeze, if_pos hc, if_pos hd]
    exact ih h
  | case5 c d rest hc hd ih =>
    rw [squeeze, if_pos hc, if_neg hd]
    rw [List.getLast?_append_of_ne_nil _ (squeeze_ne_nil d rest)]
    exact ih h
  | case6 c d rest hc ih =>
    rw [squeeze, if_neg hc]
    have hlast : (c :: squeeze (d :: rest)).getLast? = (squeeze (d :: rest)).getLast? :=
      List.getLast?_append_of_ne_nil [c] (squeeze_ne_nil d rest)
    rw [hlast]
    exact ih h

theorem strip_squeeze_strip (s : Str) : strip (squeeze (strip s)) = squeeze (strip s) :=
  strip_of_ends (head_squeeze (head_strip s)) (getLast_squeeze _ (getLast_strip s))

end Runs

end Foundation
