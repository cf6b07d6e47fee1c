import HardyAI.Foundation.SqlLogic
import HardyAI.Foundation.TextForms
import Mathlib.Data.List.Infix

/-! `LOWER` and `LIKE … ESCAPE` of SQLite, which know the case of the ASCII letters alone, and what
they find beside the case folding of Python. -/

namespace Foundation.Sql

open Foundation.Json

section Patterns

/-- `LOWER`. -/
def lower (s : Str) : Str := s.map asciiLower

inductive LikeToken
  | many
  | one
  | lit (c : CodePoint)
  deriving DecidableEq

/-- The tokens of a pattern. An escape at its end makes it match nothing. -/
def likeTokens (escape : CodePoint) : Str → Option (List LikeToken)
  | [] => some []
  | [c] =>
    if c = escape then none
    else if c = codePoint '%' then some [.many]
    else if c = codePoint '_' then some [.one]
    else some [.lit c]
  | c :: d :: rest =>
    if c = escape then (likeTokens escape rest).map (.lit d :: ·)
    else if c = codePoint '%' then (likeTokens escape (d :: rest)).map (.many :: ·)
    else if c = codePoint '_' then (likeTokens escape (d :: rest)).map (.one :: ·)
    else (likeTokens escape (d :: rest)).map (.lit c :: ·)

def likeMatch : List LikeToken → Str → Bool
  | [], s => s.isEmpty
  | .many :: tokens, s => s.tails.any (likeMatch tokens)
  | .one :: tokens, s =>
    match s with
    | [] => false
    | _ :: rest => likeMatch tokens rest
  | .lit c :: tokens, s =>
    match s with
    | [] => false
    | d :: rest => asciiLower c = asciiLower d && likeMatch tokens rest

/-- `s LIKE pattern ESCAPE escape`. -/
def like (escape : CodePoint) (pattern s : Str) : Bool :=
  (likeTokens escape pattern).any fun tokens => likeMatch tokens s

/-- `s.replace(old, new)` for one character. -/
def replaceChar (old : CodePoint) (new s : Str) : Str :=
  s.flatMap fun c => if c = old then new else [c]

/-- The three replacements after which a text stands for itself in a pattern. -/
def escapeLike (s : Str) : Str :=
  replaceChar (codePoint '_') "\\_" (replaceChar (codePoint '%') "\\%"
    (replaceChar (codePoint '\\') "\\\\" s))

def containsPattern (s : Str) : Str := text "%" ++ escapeLike s ++ text "%"

end Patterns

section Escaping

def escapeLikeChar (c : CodePoint) : Str :=
  if c = codePoint '\\' ∨ c = codePoint '%' ∨ c = codePoint '_' then [codePoint '\\', c] else [c]

/-- A character that one of the replacements writes is not read by a later one. -/
theorem escapeLike_eq (s : Str) : escapeLike s = s.flatMap escapeLikeChar := by
  have hslash : text "\\\\" = [codePoint '\\', codePoint '\\'] := by decide
  have hpercent : text "\\%" = [codePoint '\\', codePoint '%'] := by decide
  have hline : text "\\_" = [codePoint '\\', codePoint '_'] := by decide
  have hapart : codePoint '\\' ≠ codePoint '%' ∧ codePoint '\\' ≠ codePoint '_' ∧
      codePoint '%' ≠ codePoint '_' := by decide
  rw [escapeLike, replaceChar, replaceChar, replaceChar, List.flatMap_assoc, List.flatMap_assoc]
  refine List.flatMap_congr fun c _ => ?_
  rw [hslash, hpercent, hline, escapeLikeChar]
  by_cases hc : c = codePoint '\\'
  · subst hc
    simp [hapart.1, hapart.2.1]
  · by_cases hc' : c = codePoint '%'
    · subst hc'
      simp [hc, hapart.2.1, hapart.2.2]
    · by_cases hc'' : c = codePoint '_'
      · subst hc''
        simp [hc, hc']
      · simp [hc, hc', hc'']

theorem likeTokens_cons {escape c : CodePoint} (rest : Str) (hescape : c ≠ escape)
    (hmany : c ≠ codePoint '%') (hone : c ≠ codePoint '_') :
    likeTokens escape (c :: rest) = (likeTokens escape rest).map (.lit c :: ·) := by
  cases rest with
  | nil => simp [likeTokens, hescape, hmany, hone]
  | cons d rest => rw [likeTokens, if_neg hescape, if_neg hmany, if_neg hone]

theorem likeTokens_escapeLikeChar (c : CodePoint) (rest : Str) :
    likeTokens (codePoint '\\') (escapeLikeChar c ++ rest) =
      (likeTokens (codePoint '\\') rest).map (.lit c :: ·) := by
  rw [escapeLikeChar]
  split
  · rw [List.cons_append, List.singleton_append, likeTokens, if_pos rfl]
  · next h =>
    simp only [not_or] at h
    exact likeTokens_cons rest h.1 h.2.1 h.2.2

/-- An escaped text is read as its own characters. -/
theorem likeTokens_escapeLike (s rest : Str) :
    likeTokens (codePoint '\\') (escapeLike s ++ rest) =
      (likeTokens (codePoint '\\') rest).map (s.map .lit ++ ·) := by
  rw [escapeLike_eq]
  induction s with
  | nil => simp
  | cons c s ih =>
    rw [List.flatMap_cons, List.append_assoc, likeTokens_escapeLikeChar, ih, Option.map_map]
    rfl

theorem likeTokens_containsPattern (s : Str) :
    likeTokens (codePoint '\\') (containsPattern s) = some (.many :: (s.map .lit ++ [.many])) := by
  have hmany : text "%" = [codePoint '%'] := by decide
  have hlast : likeTokens (codePoint '\\') (escapeLike s ++ text "%") =
      some (s.map .lit ++ [.many]) := by
    rw [likeTokens_escapeLike]
    rfl
  rw [containsPattern, List.append_assoc, hmany, List.singleton_append, ← hmany]
  cases hrest : escapeLike s ++ text "%" with
  | nil => simp [hmany] at hrest
  | cons d rest =>
    rw [hrest] at hlast
    rw [likeTokens, if_neg (by decide), if_pos rfl, hlast]
    rfl

end Escaping

section Matching

theorem likeMatch_many (s : Str) : likeMatch [.many] s = true := by
  rw [likeMatch, List.any_eq_true]
  exact ⟨[], (List.mem_tails _ _).2 (List.nil_suffix), rfl⟩

theorem likeMatch_lits (t s : Str) :
    likeMatch (t.map .lit ++ [.many]) s = true ↔ lower t <+: lower s := by
  induction t generalizing s with
  | nil => simp [likeMatch_many, lower]
  | cons c t ih =>
    cases s with
    | nil => simp [likeMatch, lower]
    | cons d s =>
      rw [List.map_cons, List.cons_append, likeMatch, Bool.and_eq_true, decide_eq_true_eq, ih]
      simp only [lower, List.map_cons, List.cons_prefix_cons]

theorem like_containsPattern (t s : Str) :
    like (codePoint '\\') (containsPattern t) s = true ↔ lower t <:+: lower s := by
  rw [like, likeTokens_containsPattern, Option.any_some, likeMatch, List.any_eq_true,
    List.infix_iff_prefix_suffix]
  constructor
  · rintro ⟨rest, hrest, hmatch⟩
    exact ⟨lower rest, (likeMatch_lits t rest).1 hmatch, ((List.mem_tails _ _).1 hrest).map _⟩
  · rintro ⟨rest, hprefix, front, hrest⟩
    obtain ⟨front', rest', rfl, -, rfl⟩ := List.map_eq_append_iff.1 hrest.symm
    exact ⟨rest', (List.mem_tails _ _).2 (List.suffix_append _ _), (likeMatch_lits t rest').2 hprefix⟩

end Matching

section Columns

@[simp] theorem asciiLower_asciiLower (c : CodePoint) : asciiLower (asciiLower c) = asciiLower c := by
  unfold asciiLower
  split
  · next h =>
    have hnot : ¬(65 ≤ c.val + 32 ∧ c.val + 32 ≤ 90) := by omega
    exact dif_neg hnot
  · rfl

@[simp] theorem lower_lower (s : Str) : lower (lower s) = lower s := by
  simp [lower]

/-- `INSTR(s, c)`. -/
def instr (s : Str) (c : CodePoint) : Nat := if c ∈ s then s.idxOf c + 1 else 0

/-- `SUBSTR(s, first)` of a positive place. -/
def substr (s : Str) (first : Nat) : Str := s.drop (first - 1)

/-- What stands behind the first of the characters, or the whole text. -/
theorem substr_instr (s : Str) (c : CodePoint) :
    substr s (instr s c + 1) = if c ∈ s then (s.dropWhile (· ≠ c)).tail else s := by
  rw [substr, instr, Nat.add_sub_cancel]
  split
  · next h =>
    induction s with
    | nil => cases h
    | cons d s ih =>
      by_cases hd : d = c
      · subst hd
        simp
      · have hrest : c ∈ s := by
          rcases List.mem_cons.1 h with h | h
          · exact absurd h.symm hd
          · exact h
        rw [List.idxOf_cons_ne _ hd, List.dropWhile_cons, if_pos (by simpa using hd)]
        exact ih hrest
  · rfl

end Columns

section Folding

variable [PythonText] (laws : FoldLaws)
include laws

theorem casefold_asciiLower (c : CodePoint) :
    PythonText.casefold [asciiLower c] = PythonText.casefold [c] := by
  by_cases hascii : isAscii [c] = true
  · have hfold : PythonText.casefold [c] = [asciiLower c] := PythonText.casefold_ascii [c] hascii
    rw [hfold]
    exact laws.fixed c (asciiLower c) (by rw [hfold]; exact List.mem_singleton_self _)
  · have hc : ¬(65 ≤ c.val ∧ c.val ≤ 90) := by
      simp only [isAscii, List.all_cons, List.all_nil, Bool.and_true, decide_eq_true_eq] at hascii
      omega
    rw [asciiLower, dif_neg hc]

omit laws in
theorem lower_of_fixed {s : Str} (h : Fixed s) : lower s = s := by
  refine (List.map_congr_left fun c hc => ?_).trans (List.map_id s)
  by_cases hascii : isAscii [c] = true
  · exact List.singleton_injective ((PythonText.casefold_ascii [c] hascii).symm.trans (h c hc))
  · have hother : ¬(65 ≤ c.val ∧ c.val ≤ 90) := by
      simp only [isAscii, List.all_cons, List.all_nil, Bool.and_true, decide_eq_true_eq] at hascii
      omega
    exact dif_neg hother

/-- `LOWER` changes nothing that case folding would tell apart. -/
theorem casefold_lower (s : Str) : PythonText.casefold (lower s) = PythonText.casefold s := by
  induction s with
  | nil => rfl
  | cons c s ih =>
    have hcons : lower (c :: s) = [asciiLower c] ++ lower s := rfl
    rw [hcons, laws.append, casefold_asciiLower laws, ih, ← laws.append, List.singleton_append]

/-- Where `LOWER` makes a folded text of a column, case folding makes the same of it. -/
theorem casefold_of_lower {s t : Str} (ht : Fixed t) (h : lower s = t) :
    PythonText.casefold s = t := by
  rw [← casefold_lower laws, h, casefold_of_fixed laws ht]

/-- What `LIKE` finds of a folded text, case folding finds. -/
theorem infix_casefold {s t : Str} (ht : Fixed t) (h : lower t <:+: lower s) :
    t <:+: PythonText.casefold s := by
  obtain ⟨front, back, hs⟩ := h
  have hfold : PythonText.casefold s =
      PythonText.casefold front ++ t ++ PythonText.casefold back := by
    rw [← casefold_lower laws s, ← hs, laws.append, laws.append, casefold_lower laws,
      casefold_of_fixed laws ht]
  rw [hfold]
  exact List.infix_append _ _ _

end Folding

end Foundation.Sql
