import HardyAI.Foundation.TextForms
import HardyAI.Lists.Store
import Mathlib.Data.List.DropRight

/-! The names of lists: what the tools make of a name, once for the approval and once more for the
call. -/

open Foundation Foundation.Json

namespace HardyAI.Lists

section Normalizer

def isLowerOrDigit (c : CodePoint) : Bool :=
  (0x61 ≤ c.val && c.val ≤ 0x7A) || (0x30 ≤ c.val && c.val ≤ 0x39)

def isCapital (c : CodePoint) : Bool := 0x41 ≤ c.val && c.val ≤ 0x5A

/-- `re.sub(r"([a-z0-9])([A-Z])", r"\1 \2", s)`. -/
def spaceCapitals : Str → Str
  | c :: d :: rest =>
    if isLowerOrDigit c && isCapital d then c :: 0x20 :: spaceCapitals (d :: rest)
    else c :: spaceCapitals (d :: rest)
  | s => s

/-- `[a-z0-9\s_-]`. -/
def isNameChar (c : CodePoint) : Bool := isLowerOrDigit c || isSpace c || c = 0x5F || c = 0x2D

def articles : List Str := [text "my", text "the", text "our", text "a", text "an"]

def listWords : List Str := [text "list", text "lists"]

def behindArticle (s article : Str) : Option Str :=
  let rest := s.drop article.length
  if article.isPrefixOf s && rest.head?.any isSpace then some (rest.dropWhile isSpace) else none

/-- `re.sub(r"^(?:my|the|our|a|an)\s+", "", s)`. -/
def dropArticle (s : Str) : Str := (articles.findSome? (behindArticle s)).getD s

def beforeListWord (s word : Str) : Option Str :=
  let front := s.take (s.length - word.length)
  if word.isSuffixOf s && front.getLast?.any isSpace then some (front.rdropWhile isSpace) else none

/-- `re.sub(r"\s+lists?$", "", s)` of a text without line breaks. -/
def dropListWord (s : Str) : Str := (listWords.findSome? (beforeListWord s)).getD s

/-- `_LIST_ALIASES`. -/
def listAliases : List (Str × Str) :=
  [("grocery", "groceries"), ("groceries", "groceries"), ("shopping", "groceries"),
    ("shopping list", "groceries"), ("grocery list", "groceries"), ("todo", "to-do"),
    ("to do", "to-do"), ("to-do", "to-do")]

def isListAlias (s : Str) : Bool := listAliases.any fun p => p.1 = s

def canonicalAlias (s : Str) : Str := ((listAliases.find? fun p => p.1 = s).map Prod.snd).getD s

variable [PythonText]

/-- A name before its article and its list word are taken off. -/
def cleanName (value : Str) : Str :=
  let lowered := PythonText.lower (spaceCapitals (strip value))
  compact ((lowered.filter isNameChar).map fun c => if c = 0x5F then 0x20 else c)

/-- `_normalize_list_name`. -/
def normalizeListName (value : Str) : Str :=
  canonicalAlias (compact (dropListWord (dropArticle (cleanName value))))

def deicticNames : List Str :=
  [text "it", text "that", text "this", text "same", text "same list", text "that list",
    text "this list"]

/-- `_collection_name`, with which the arguments are canonicalized and, once more, executed. -/
def collectionName (value : Json) : Except PyError Str := do
  let name ← textOr (some value) []
  let normalized := normalizeListName name
  require (normalized ≠ [] && normalized.length ≤ 100 && !deicticNames.contains normalized)
    (.toolContractError "lists_collection_name_invalid")
  .ok normalized

omit [PythonText] in
/-- `_records_for_name`. -/
def recordsForName (records : List ListRow) (name : Str) : List ListRow :=
  records.filter fun r => r.listNameNormalized = name

end Normalizer

section Purpose

/-- A name that begins with an article before another word. -/
def Leads (s : Str) : Prop := ∃ a ∈ articles, ∃ rest, s = a ++ 0x20 :: rest

/-- A name that ends with a list word behind another word. -/
def Trails (s : Str) : Prop := ∃ l ∈ listWords, ∃ front, s = front ++ 0x20 :: l

/-- Two articles before a name, or two list words behind one that is no alias with the first. -/
inductive RepeatedAffix (s : Str) : Prop
  | twoArticles (a b rest : Str) (ha : a ∈ articles) (hb : b ∈ articles)
      (hs : s = a ++ 0x20 :: (b ++ 0x20 :: rest)) (hrest : rest ∉ listWords)
  | twoListWords (front l l' : Str) (hl : l ∈ listWords) (hl' : l' ∈ listWords)
      (hs : s = front ++ 0x20 :: (l ++ 0x20 :: l')) (hfront : front ∉ articles)
      (hname : ∀ name, (front = name ∨ ∃ a ∈ articles, front = a ++ 0x20 :: name) →
        isListAlias (name ++ 0x20 :: l) = false)

end Purpose

section Clean

/-- The characters of a cleaned name. -/
def isNameLetter (c : CodePoint) : Bool := isLowerOrDigit c || c = 0x2D || c = 0x20

/-- A name that cleaning leaves as it is. -/
structure Clean (s : Str) : Prop where
  letters : ∀ c ∈ s, isNameLetter c = true
  squeezed : Squeezed s
  stripped : strip s = s

theorem letter_cases {c : CodePoint} (h : isNameLetter c = true) :
    (97 ≤ c.val ∧ c.val ≤ 122) ∨ (48 ≤ c.val ∧ c.val ≤ 57) ∨ c.val = 45 ∨ c.val = 32 := by
  have hcase : ((97 ≤ c.val ∧ c.val ≤ 122 ∨ 48 ≤ c.val ∧ c.val ≤ 57) ∨ c = 0x2D) ∨ c = 0x20 := by
    simpa [isNameLetter, isLowerOrDigit] using h
  rcases hcase with (hcase | rfl) | rfl
  · exact hcase.imp_right .inl
  · exact .inr (.inr (.inl rfl))
  · exact .inr (.inr (.inr rfl))

theorem eq_blank {c : CodePoint} (h : isNameLetter c = true) (hspace : isSpace c = true) :
    c = 0x20 := by
  have hspace' := hspace
  simp only [isSpace] at hspace'
  simp at hspace'
  apply Fin.ext
  show c.val = 32
  have := letter_cases h
  omega

/-- Only single blanks stand between the characters. -/
theorem not_blank_behind {front rest : Str} {c : CodePoint}
    (h : Squeezed (front ++ 0x20 :: c :: rest)) : isSpace c = false := by
  have hsuffix : Squeezed (0x20 :: c :: rest) := h.suffix (List.suffix_append front _)
  exact (hsuffix.1 isSpace_blank).2

theorem not_blank_before {front rest : Str} (h : Squeezed (front ++ 0x20 :: rest)) :
    ∀ c ∈ front.getLast?, isSpace c = false := by
  intro c hc
  obtain ⟨before, rfl⟩ := List.getLast?_eq_some_iff.1 hc
  rw [List.append_assoc] at h
  have hsuffix : Squeezed (c :: 0x20 :: rest) := h.suffix (List.suffix_append before _)
  by_contra hspace
  rw [Bool.not_eq_false] at hspace
  have hblank := (hsuffix.1 hspace).2
  rw [isSpace_blank] at hblank
  cases hblank

theorem Clean.behind {front rest : Str} (h : Clean (front ++ 0x20 :: rest)) : Clean rest where
  letters c hc := h.letters c (List.mem_append_right _ (List.mem_cons_of_mem _ hc))
  squeezed := h.squeezed.suffix ⟨front ++ [0x20], by simp⟩
  stripped := by
    refine strip_of_ends (fun c hc => ?_) (fun c hc => ?_)
    · obtain ⟨tail, rfl⟩ := List.head?_eq_some_iff.1 hc
      exact not_blank_behind h.squeezed
    · have hlast : c ∈ (front ++ 0x20 :: rest).getLast? := by
        obtain ⟨before, rfl⟩ := List.getLast?_eq_some_iff.1 hc
        exact List.getLast?_eq_some_iff.2 ⟨front ++ 0x20 :: before, by simp⟩
      rw [← h.stripped] at hlast
      exact getLast_strip _ c hlast

theorem Clean.before {front rest : Str} (h : Clean (front ++ 0x20 :: rest)) : Clean front where
  letters c hc := h.letters c (List.mem_append_left _ hc)
  squeezed := h.squeezed.front
  stripped := by
    refine strip_of_ends (fun c hc => ?_) (not_blank_before h.squeezed)
    have hfirst : c ∈ (front ++ 0x20 :: rest).head? := by
      obtain ⟨tail, rfl⟩ := List.head?_eq_some_iff.1 hc
      rfl
    rw [← h.stripped] at hfirst
    exact head_strip _ c hfirst

variable {s : Str}

theorem behindArticle_eq_some {a t : Str} : behindArticle s a = some t ↔
    ∃ c rest, s = a ++ c :: rest ∧ isSpace c = true ∧ t = rest.dropWhile isSpace := by
  unfold behindArticle
  constructor
  · intro h
    obtain ⟨hmatch, ht⟩ := Option.ite_none_right_eq_some.1 h
    obtain ⟨hstart, hhead⟩ := Bool.and_eq_true_iff.1 hmatch
    obtain ⟨rest, rfl⟩ := List.isPrefixOf_iff_prefix.1 hstart
    rw [List.drop_left] at hhead ht
    cases rest with
    | nil => cases hhead
    | cons c rest =>
      have hspace : isSpace c = true := hhead
      rw [List.dropWhile_cons_of_pos hspace, Option.some.injEq] at ht
      exact ⟨c, rest, rfl, hspace, ht.symm⟩
  · rintro ⟨c, rest, rfl, hspace, rfl⟩
    simp [hspace]

theorem beforeListWord_eq_some {l t : Str} : beforeListWord s l = some t ↔
    ∃ c front, s = front ++ c :: l ∧ isSpace c = true ∧ t = front.rdropWhile isSpace := by
  unfold beforeListWord
  constructor
  · intro h
    obtain ⟨hmatch, ht⟩ := Option.ite_none_right_eq_some.1 h
    obtain ⟨hend, hlast⟩ := Bool.and_eq_true_iff.1 hmatch
    obtain ⟨front, rfl⟩ := List.isSuffixOf_iff_suffix.1 hend
    rw [List.length_append, Nat.add_sub_cancel, List.take_left] at hlast ht
    obtain ⟨c, hc, hspace⟩ := (Option.any_eq_true _ _).1 hlast
    obtain ⟨before, rfl⟩ := List.getLast?_eq_some_iff.1 hc
    rw [List.rdropWhile_concat_pos _ _ _ hspace, Option.some.injEq] at ht
    exact ⟨c, before, by simp, hspace, ht.symm⟩
  · rintro ⟨c, front, rfl, hspace, rfl⟩
    have hsplit : front ++ c :: l = front ++ [c] ++ l := by simp
    have hsuffix : l.isSuffixOf (front ++ [c] ++ l) = true :=
      List.isSuffixOf_iff_suffix.2 (List.suffix_append _ l)
    rw [hsplit, hsuffix, List.length_append, Nat.add_sub_cancel, List.take_left]
    simp [hspace, List.rdropWhile_concat_pos _ _ _ hspace]

/-- An article is taken off where one leads. -/
theorem dropArticle_cases (hs : Clean s) :
    (∃ a ∈ articles, s = a ++ 0x20 :: dropArticle s) ∨ dropArticle s = s ∧ ¬Leads s := by
  cases hfound : articles.findSome? (behindArticle s) with
  | none =>
    refine .inr ⟨by rw [dropArticle, hfound]; rfl, ?_⟩
    rintro ⟨a, ha, rest, hrest⟩
    have hsome := behindArticle_eq_some.2 ⟨0x20, rest, hrest, isSpace_blank, rfl⟩
    rw [List.findSome?_eq_none_iff.1 hfound a ha] at hsome
    cases hsome
  | some t =>
    obtain ⟨a, ha, hbehind⟩ := List.exists_of_findSome?_eq_some hfound
    obtain ⟨c, rest, hrest, hspace, rfl⟩ := behindArticle_eq_some.1 hbehind
    have hletter : isNameLetter c = true := hs.letters c (by rw [hrest]; simp)
    obtain rfl := eq_blank hletter hspace
    refine .inl ⟨a, ha, ?_⟩
    have hdrop : rest.dropWhile isSpace = rest := by
      cases rest with
      | nil => rfl
      | cons d rest =>
        have hsqueezed := hs.squeezed
        rw [hrest] at hsqueezed
        rw [List.dropWhile_cons_of_neg]
        rw [not_blank_behind hsqueezed]
        exact Bool.false_ne_true
    rw [dropArticle, hfound, Option.getD_some, hdrop, ← hrest]

/-- A list word is taken off where one trails. -/
theorem dropListWord_cases (hs : Clean s) :
    (∃ l ∈ listWords, s = dropListWord s ++ 0x20 :: l) ∨ dropListWord s = s ∧ ¬Trails s := by
  cases hfound : listWords.findSome? (beforeListWord s) with
  | none =>
    refine .inr ⟨by rw [dropListWord, hfound]; rfl, ?_⟩
    rintro ⟨l, hl, front, hfront⟩
    have hsome := beforeListWord_eq_some.2 ⟨0x20, front, hfront, isSpace_blank, rfl⟩
    rw [List.findSome?_eq_none_iff.1 hfound l hl] at hsome
    cases hsome
  | some t =>
    obtain ⟨l, hl, hbefore⟩ := List.exists_of_findSome?_eq_some hfound
    obtain ⟨c, front, hfront, hspace, rfl⟩ := beforeListWord_eq_some.1 hbefore
    have hletter : isNameLetter c = true := hs.letters c (by rw [hfront]; simp)
    obtain rfl := eq_blank hletter hspace
    refine .inl ⟨l, hl, ?_⟩
    have hdrop : front.rdropWhile isSpace = front := by
      have hsqueezed := hs.squeezed
      rw [hfront] at hsqueezed
      rw [List.rdropWhile_eq_self_iff]
      intro hne
      rw [not_blank_before hsqueezed _ (List.getLast?_eq_some_getLast hne)]
      exact Bool.false_ne_true
    rw [dropListWord, hfound, Option.getD_some, hdrop, ← hfront]

theorem Clean.dropArticle (hs : Clean s) : Clean (dropArticle s) := by
  rcases dropArticle_cases hs with ⟨a, -, ha⟩ | ⟨hsame, -⟩
  · rw [ha] at hs
    exact hs.behind
  · rwa [hsame]

theorem Clean.dropListWord (hs : Clean s) : Clean (dropListWord s) := by
  rcases dropListWord_cases hs with ⟨l, -, hl⟩ | ⟨hsame, -⟩
  · rw [hl] at hs
    exact hs.before
  · rwa [hsame]

theorem Clean.compact (hs : Clean s) : compact s = s := compact_of_compact hs.squeezed hs.stripped

end Clean

section Cleaning

variable [PythonText] {s : Str}

omit [PythonText] in
theorem spaceCapitals_of_clean (hs : ∀ c ∈ s, isNameLetter c = true) : spaceCapitals s = s := by
  induction s with
  | nil => rfl
  | cons c s ih =>
    cases s with
    | nil => rfl
    | cons d rest =>
      have hd := letter_cases (hs d (by simp))
      have hcapital : isCapital d = false := by
        simp only [isCapital, Bool.and_eq_false_iff, decide_eq_false_iff_not]
        omega
      rw [spaceCapitals, hcapital, Bool.and_false, if_neg Bool.false_ne_true,
        ih fun e he => hs e (List.mem_cons_of_mem c he)]

theorem lower_of_clean (hs : ∀ c ∈ s, isNameLetter c = true) : PythonText.lower s = s := by
  have hascii : isAscii s = true := by
    rw [isAscii, List.all_eq_true]
    intro c hc
    have := letter_cases (hs c hc)
    rw [decide_eq_true_eq]
    omega
  rw [PythonText.lower_ascii s hascii]
  refine (List.map_congr_left fun c hc => ?_).trans (List.map_id s)
  have := letter_cases (hs c hc)
  exact dif_neg (by omega)

omit [PythonText] in
theorem blank_of_squeezed (hs : Squeezed s) {c : CodePoint} (hc : c ∈ s)
    (hspace : isSpace c = true) : c = 0x20 := by
  obtain ⟨front, rest, rfl⟩ := List.append_of_mem hc
  have hsuffix : Squeezed (c :: rest) := hs.suffix (List.suffix_append front _)
  cases rest with
  | nil => exact hsuffix hspace
  | cons d rest => exact (hsuffix.1 hspace).1

/-- Cleaning leaves nothing but letters, digits, dashes and single blanks. -/
theorem clean_cleanName (value : Str) : Clean (cleanName value) where
  letters c hc := by
    by_cases hspace : isSpace c = true
    · rw [blank_of_squeezed (squeezed_compact _) hc hspace]
      decide
    · rcases mem_compact hc with hc | rfl
      · obtain ⟨d, hd, hdc⟩ := List.mem_map.1 hc
        obtain ⟨-, hchar⟩ := List.mem_filter.1 hd
        unfold isNameChar at hchar
        unfold isNameLetter
        grind
      · decide
  squeezed := squeezed_compact _
  stripped := strip_compact _

theorem cleanName_of_clean (hs : Clean s) : cleanName s = s := by
  have hfilter : s.filter isNameChar = s := by
    rw [List.filter_eq_self]
    intro c hc
    have hletter := hs.letters c hc
    have hblank : isSpace 0x20 = true := isSpace_blank
    unfold isNameLetter at hletter
    unfold isNameChar
    grind
  have hmap : (s.map fun c => if c = 0x5F then 0x20 else c) = s := by
    refine (List.map_congr_left fun c hc => ?_).trans (List.map_id s)
    refine if_neg ?_
    rintro rfl
    exact absurd (hs.letters _ hc) (by decide)
  rw [cleanName, hs.stripped, spaceCapitals_of_clean hs.letters, lower_of_clean hs.letters, hfilter,
    hmap, hs.compact]

/-- A clean name without its article and its list word. -/
def bareName (s : Str) : Str := dropListWord (dropArticle s)

omit [PythonText] in
theorem Clean.bareName (hs : Clean s) : Clean (bareName s) := hs.dropArticle.dropListWord

theorem normalizeListName_eq (value : Str) :
    normalizeListName value = canonicalAlias (bareName (cleanName value)) := by
  have hbare : Clean (bareName (cleanName value)) := (clean_cleanName value).bareName
  rw [normalizeListName, ← bareName, hbare.compact]

theorem normalizeListName_of_clean (hs : Clean s) :
    normalizeListName s = canonicalAlias (bareName s) := by
  rw [normalizeListName_eq, cleanName_of_clean hs]

end Cleaning

section SecondPass

variable [PythonText] {s : Str}

omit [PythonText] in
theorem canonicalAlias_cases (s : Str) :
    (isListAlias s = true ∧ ∃ p ∈ listAliases, p.1 = s ∧ canonicalAlias s = p.2) ∨
      isListAlias s = false ∧ canonicalAlias s = s := by
  cases hfound : listAliases.find? fun p => p.1 = s with
  | none =>
    refine .inr ⟨?_, by rw [canonicalAlias, hfound]; rfl⟩
    rw [isListAlias, List.any_eq_false]
    exact fun p hp => by simpa using List.find?_eq_none.1 hfound p hp
  | some p =>
    have hkey : p.1 = s := by simpa using List.find?_some hfound
    have hmem := List.mem_of_find?_eq_some hfound
    refine .inl ⟨?_, p, hmem, hkey, by rw [canonicalAlias, hfound]; rfl⟩
    rw [isListAlias, List.any_eq_true]
    exact ⟨p, hmem, decide_eq_true hkey⟩

omit [PythonText] in
theorem clean_of_compact (hletters : s.all isNameLetter = true) (hcompact : compact s = s) :
    Clean s where
  letters := List.all_eq_true.1 hletters
  squeezed := hcompact ▸ squeezed_compact s
  stripped := by rw [← hcompact, strip_compact]

omit [PythonText] in
/-- The aliases are clean and begin with no article; they stand for two names, each of which stands
for itself. -/
theorem listAliases_checked :
    (∀ p ∈ listAliases, p.1.all isNameLetter = true ∧ compact p.1 = p.1 ∧
      dropArticle p.1 = p.1 ∧ p.2 ∈ [text "groceries", text "to-do"]) ∧
    ∀ t ∈ [text "groceries", text "to-do"], t.all isNameLetter = true ∧ compact t = t ∧
      canonicalAlias (bareName t) = t ∧ isListAlias t = true := by
  decide +kernel

/-- What an alias stands for is a name of its own. -/
theorem normalizeListName_alias (p : Str × Str) (hp : p ∈ listAliases) :
    normalizeListName p.2 = p.2 := by
  obtain ⟨-, -, -, htwo⟩ := listAliases_checked.1 p hp
  obtain ⟨hletters, hcompact, hsame, -⟩ := listAliases_checked.2 _ htwo
  rw [normalizeListName_of_clean (clean_of_compact hletters hcompact), hsame]

omit [PythonText] in
theorem length_bareName_lt (hs : Clean s) (h : Leads s ∨ Trails s) :
    (bareName s).length < s.length := by
  have harticle : (dropArticle s).length ≤ s.length ∧
      (Leads s → (dropArticle s).length < s.length) := by
    rcases dropArticle_cases hs with ⟨a, -, ha⟩ | ⟨hsame, hnot⟩
    · have hlength := congrArg List.length ha
      rw [List.length_append, List.length_cons] at hlength
      omega
    · rw [hsame]
      exact ⟨le_rfl, fun hleads => absurd hleads hnot⟩
  have hword : (bareName s).length ≤ (dropArticle s).length ∧
      (Trails (dropArticle s) → (bareName s).length < (dropArticle s).length) := by
    rcases dropListWord_cases hs.dropArticle with ⟨l, -, hl⟩ | ⟨hsame, hnot⟩
    · have hlength := congrArg List.length hl
      rw [List.length_append, List.length_cons] at hlength
      unfold bareName
      omega
    · rw [bareName, hsame]
      exact ⟨le_rfl, fun htrails => absurd htrails hnot⟩
  rcases h with hleads | htrails
  · have := harticle.2 hleads
    omega
  · rcases dropArticle_cases hs with ⟨a, ha, hsplit⟩ | ⟨hsame, -⟩
    · have := harticle.2 ⟨a, ha, _, hsplit⟩
      omega
    · rw [hsame] at hword
      exact hword.2 htrails

omit [PythonText] in
theorem bareName_of_not (hs : Clean s) (hleads : ¬Leads s) (htrails : ¬Trails s) :
    bareName s = s := by
  rcases dropArticle_cases hs with ⟨a, ha, hsplit⟩ | ⟨hsame, -⟩
  · exact absurd ⟨a, ha, _, hsplit⟩ hleads
  · rcases dropListWord_cases hs with ⟨l, hl, hsplit⟩ | ⟨hsame', -⟩
    · exact absurd ⟨l, hl, _, hsplit⟩ htrails
    · rw [bareName, hsame, hsame']

/-- A second pass leaves the name of a clean text alone, unless the text still has an affix and is
no alias. -/
theorem normalizeListName_canonicalAlias (hs : Clean s) :
    normalizeListName (canonicalAlias s) = canonicalAlias s ↔
      (isListAlias s = false → ¬Leads s ∧ ¬Trails s) := by
  rcases canonicalAlias_cases s with ⟨halias, p, hp, -, hvalue⟩ | ⟨halias, hvalue⟩
  · rw [hvalue, normalizeListName_alias p hp, halias]
    simp
  · rw [hvalue, normalizeListName_of_clean hs, halias]
    constructor
    · intro hsame _
      rw [← not_or]
      intro haffix
      have hshort := length_bareName_lt hs haffix
      rcases canonicalAlias_cases (bareName s) with ⟨-, p, hp, -, hvalue'⟩ | ⟨-, hvalue'⟩
      · -- What an alias stands for is an alias itself.
        obtain ⟨-, -, -, htwo⟩ := listAliases_checked.1 p hp
        obtain ⟨-, -, -, hkey⟩ := listAliases_checked.2 _ htwo
        rw [← hvalue', hsame, halias] at hkey
        cases hkey
      · rw [← hvalue', hsame] at hshort
        exact lt_irrefl _ hshort
    · intro hnot
      obtain ⟨hleads, htrails⟩ := hnot rfl
      rw [bareName_of_not hs hleads htrails, hvalue]

end SecondPass

section Affixes

/-- Two blanks of one text: they are the same, or one of them comes first. -/
theorem blank_splits {a b x y : Str} (h : a ++ 0x20 :: x = b ++ 0x20 :: y) :
    a = b ∧ x = y ∨ (∃ t, b = a ++ 0x20 :: t ∧ x = t ++ 0x20 :: y) ∨
      ∃ t, a = b ++ 0x20 :: t ∧ y = t ++ 0x20 :: x := by
  rcases List.append_eq_append_iff.1 h with ⟨t, rfl, ht⟩ | ⟨t, rfl, ht⟩
  · cases t with
    | nil => exact .inl ⟨by simp, (List.cons.inj ht).2⟩
    | cons c t =>
      obtain ⟨rfl, hrest⟩ := List.cons.inj ht
      exact .inr (.inl ⟨t, rfl, hrest⟩)
  · cases t with
    | nil => exact .inl ⟨by simp, (List.cons.inj ht).2.symm⟩
    | cons c t =>
      obtain ⟨rfl, hrest⟩ := List.cons.inj ht
      exact .inr (.inr ⟨t, rfl, hrest⟩)

theorem words_unbroken : (∀ a ∈ articles, 0x20 ∉ a) ∧ ∀ l ∈ listWords, 0x20 ∉ l := by
  decide +kernel

theorem broken (s t : Str) : 0x20 ∈ s ++ 0x20 :: t := by simp

variable {s a l t x y : Str}

/-- The first word of a name is one. -/
theorem article_split (ha : a ∈ articles) {b : Str} (hb : b ∈ articles)
    (h : a ++ 0x20 :: x = b ++ 0x20 :: y) : a = b ∧ x = y := by
  rcases blank_splits h with hsame | ⟨t, rfl, -⟩ | ⟨t, rfl, -⟩
  · exact hsame
  · exact absurd (broken a t) (words_unbroken.1 _ hb)
  · exact absurd (broken b t) (words_unbroken.1 _ ha)

/-- So is the last one. -/
theorem listWord_split (hl : l ∈ listWords) {l' : Str} (hl' : l' ∈ listWords)
    (h : x ++ 0x20 :: l = y ++ 0x20 :: l') : x = y ∧ l = l' := by
  rcases blank_splits h with hsame | ⟨t, -, rfl⟩ | ⟨t, -, rfl⟩
  · exact hsame
  · exact absurd (broken t l') (words_unbroken.2 _ hl)
  · exact absurd (broken t l) (words_unbroken.2 _ hl')

theorem leads_append (h : Leads s) (t : Str) : Leads (s ++ t) := by
  obtain ⟨a, ha, rest, rfl⟩ := h
  exact ⟨a, ha, rest ++ t, by simp⟩

theorem trails_append (h : Trails s) (t : Str) : Trails (t ++ s) := by
  obtain ⟨l, hl, front, rfl⟩ := h
  exact ⟨l, hl, t ++ front, by simp⟩

theorem alias_not_leads : ∀ p ∈ listAliases, ¬Leads p.1 := by
  intro p hp hleads
  obtain ⟨hletters, hcompact, hsame, -⟩ := listAliases_checked.1 p hp
  rcases dropArticle_cases (clean_of_compact hletters hcompact) with ⟨a, -, ha⟩ | ⟨-, hnot⟩
  · have hlength := congrArg List.length ha
    rw [hsame, List.length_append, List.length_cons] at hlength
    omega
  · exact hnot hleads

theorem isListAlias_of_leads (h : Leads s) : isListAlias s = false := by
  rw [isListAlias, List.any_eq_false]
  intro p hp
  rw [decide_eq_true_iff]
  rintro rfl
  exact alias_not_leads p hp h

/-- What is left of a name leads with an article where two of them stood before it. -/
theorem leads_bareName_iff (hs : Clean s) : Leads (bareName s) ↔
    ∃ a ∈ articles, ∃ b ∈ articles, ∃ rest, s = a ++ 0x20 :: (b ++ 0x20 :: rest) ∧
      rest ∉ listWords := by
  constructor
  · rintro ⟨b, hb, r, hbare⟩
    rcases dropArticle_cases hs with ⟨a, ha, hsplit⟩ | ⟨hsame, hnot⟩
    · refine ⟨a, ha, b, hb, ?_⟩
      rcases dropListWord_cases hs.dropArticle with ⟨l, hl, hword⟩ | ⟨hword, htrails⟩
      · refine ⟨r ++ 0x20 :: l, ?_, fun hmem => words_unbroken.2 _ hmem (broken r l)⟩
        rw [hsplit, hword, ← bareName, hbare]
        simp
      · rw [bareName, hword] at hbare
        refine ⟨r, by rw [hsplit, hbare], fun hmem => htrails ⟨r, hmem, b, hbare⟩⟩
    · refine absurd ?_ hnot
      rcases dropListWord_cases hs.dropArticle with ⟨l, -, hword⟩ | ⟨hword, -⟩
      · rw [hsame] at hword
        rw [hword]
        refine leads_append ?_ _
        rw [bareName, hsame] at hbare
        exact ⟨b, hb, r, hbare⟩
      · rw [bareName, hword, hsame] at hbare
        exact ⟨b, hb, r, hbare⟩
  · rintro ⟨a, ha, b, hb, rest, rfl, hrest⟩
    have hdrop : dropArticle (a ++ 0x20 :: (b ++ 0x20 :: rest)) = b ++ 0x20 :: rest := by
      rcases dropArticle_cases hs with ⟨a', ha', hsplit⟩ | ⟨-, hnot⟩
      · exact (article_split ha ha' hsplit).2.symm
      · exact absurd ⟨a, ha, _, rfl⟩ hnot
    have hclean := hs.dropArticle
    rw [bareName]
    rw [hdrop] at hclean ⊢
    rcases dropListWord_cases hclean with ⟨l, hl, hword⟩ | ⟨hword, -⟩
    · rcases blank_splits hword with ⟨-, rfl⟩ | ⟨t, ht, -⟩ | ⟨t, ht, -⟩
      · exact absurd hl hrest
      · exact ⟨b, hb, t, ht⟩
      · rw [ht] at hb
        exact absurd (broken _ t) (words_unbroken.1 _ hb)
    · exact ⟨b, hb, rest, hword⟩

/-- It trails with a list word where two of them stood behind it. -/
theorem trails_bareName (hs : Clean s) (h : Trails (bareName s)) : ∃ front l l',
    l ∈ listWords ∧ l' ∈ listWords ∧ s = front ++ 0x20 :: (l ++ 0x20 :: l') ∧ front ∉ articles ∧
      ∃ name, bareName s = name ++ 0x20 :: l ∧
        (front = name ∧ ¬Leads s ∨ ∃ a ∈ articles, front = a ++ 0x20 :: name) := by
  obtain ⟨l, hl, name, hbare⟩ := h
  rcases dropListWord_cases hs.dropArticle with ⟨l', hl', hword⟩ | ⟨hword, htrails⟩
  · rw [← bareName, hbare] at hword
    rcases dropArticle_cases hs with ⟨a, ha, hsplit⟩ | ⟨hsame, hnot⟩
    · refine ⟨a ++ 0x20 :: name, l, l', hl, hl', ?_, ?_, name, hbare, .inr ⟨a, ha, rfl⟩⟩
      · rw [hsplit, hword]
        simp
      · exact fun hmem => words_unbroken.1 _ hmem (broken a name)
    · rw [hsame] at hword
      refine ⟨name, l, l', hl, hl', by rw [hword]; simp, ?_, name, hbare, .inl ⟨rfl, hnot⟩⟩
      intro hmem
      exact hnot ⟨name, hmem, l ++ 0x20 :: l', by rw [hword]; simp⟩
  · rw [bareName, hword] at hbare
    exact absurd ⟨l, hl, name, hbare⟩ htrails

theorem bareName_of_two {front l l' : Str} (hl' : l' ∈ listWords)
    (hs : Clean (front ++ 0x20 :: (l ++ 0x20 :: l'))) (hfront : front ∉ articles) :
    ∃ name, bareName (front ++ 0x20 :: (l ++ 0x20 :: l')) = name ++ 0x20 :: l ∧
      (front = name ∨ ∃ a ∈ articles, front = a ++ 0x20 :: name) := by
  have hdrop : ∃ name, dropArticle (front ++ 0x20 :: (l ++ 0x20 :: l')) =
      name ++ 0x20 :: (l ++ 0x20 :: l') ∧
        (front = name ∨ ∃ a ∈ articles, front = a ++ 0x20 :: name) := by
    rcases dropArticle_cases hs with ⟨a, ha, hsplit⟩ | ⟨hsame, -⟩
    · rcases blank_splits hsplit with ⟨rfl, -⟩ | ⟨t, rfl, -⟩ | ⟨t, rfl, ht⟩
      · exact absurd ha hfront
      · exact absurd (broken front t) (words_unbroken.1 _ ha)
      · exact ⟨t, ht, .inr ⟨a, ha, rfl⟩⟩
    · exact ⟨front, hsame, .inl rfl⟩
  obtain ⟨name, hname, hwhere⟩ := hdrop
  have hclean := hs.dropArticle
  refine ⟨name, ?_, hwhere⟩
  rw [bareName]
  rw [hname] at hclean ⊢
  rcases dropListWord_cases hclean with ⟨l'', hl'', hword⟩ | ⟨-, hnot⟩
  · have hsplit : (name ++ 0x20 :: l) ++ 0x20 :: l' =
        dropListWord (name ++ 0x20 :: (l ++ 0x20 :: l')) ++ 0x20 :: l'' := by
      rw [← hword]
      simp
    exact (listWord_split hl' hl'' hsplit).1.symm
  · exact absurd ⟨l', hl', name ++ 0x20 :: l, by simp⟩ hnot

theorem repeatedAffix_iff (hs : Clean s) : RepeatedAffix s ↔
    isListAlias (bareName s) = false ∧ (Leads (bareName s) ∨ Trails (bareName s)) := by
  constructor
  · intro h
    cases h with
    | twoArticles a b rest ha hb hsplit hrest =>
      have hleads := (leads_bareName_iff hs).2 ⟨a, ha, b, hb, rest, hsplit, hrest⟩
      exact ⟨isListAlias_of_leads hleads, .inl hleads⟩
    | twoListWords front l l' hl hl' hsplit hfront hname =>
      subst hsplit
      obtain ⟨name, hbare, hwhere⟩ := bareName_of_two hl' hs hfront
      rw [hbare]
      exact ⟨hname name hwhere, .inr ⟨l, hl, name, rfl⟩⟩
  · rintro ⟨halias, hleads | htrails⟩
    · obtain ⟨a, ha, b, hb, rest, hsplit, hrest⟩ := (leads_bareName_iff hs).1 hleads
      exact .twoArticles a b rest ha hb hsplit hrest
    · obtain ⟨front, l, l', hl, hl', hsplit, hfront, name, hbare, hwhere⟩ := trails_bareName hs htrails
      refine .twoListWords front l l' hl hl' hsplit hfront fun other hother => ?_
      rw [hbare] at halias
      rcases hwhere with ⟨rfl, hnot⟩ | ⟨a, ha, rfl⟩
      · rcases hother with rfl | ⟨a, ha, rfl⟩
        · exact halias
        · exact absurd ⟨a, ha, other ++ 0x20 :: (l ++ 0x20 :: l'), by rw [hsplit]; simp⟩ hnot
      · rcases hother with rfl | ⟨a', ha', hsame⟩
        · exact isListAlias_of_leads ⟨a, ha, name ++ 0x20 :: l, by simp⟩
        · rwa [← (article_split ha ha' hsame).2]

end Affixes

section Claim

variable [PythonText]

/-- A second pass over a name changes it exactly where an affix of it is repeated. -/
theorem normalizeListName_idem_iff (value : Str) :
    normalizeListName (normalizeListName value) = normalizeListName value ↔
      ¬RepeatedAffix (cleanName value) := by
  have hclean := clean_cleanName value
  rw [normalizeListName_eq value, normalizeListName_canonicalAlias hclean.bareName,
    repeatedAffix_iff hclean, not_and, not_or]

theorem textOr_str (value : Str) : textOr (some (.str value)) [] = .ok value := by
  by_cases hempty : value = []
  · rw [hempty]
    rfl
  · simp [textOr, truthy, hempty, pyStr]

theorem collectionName_eq_ok {value name : Str} : collectionName (.str value) = .ok name ↔
    normalizeListName value = name ∧ name ≠ [] ∧ name.length ≤ 100 ∧ name ∉ deicticNames := by
  rw [collectionName, textOr_str]
  constructor
  · intro h
    obtain ⟨given, hgiven, h⟩ := bind_eq_ok.1 h
    obtain rfl := Except.ok.inj hgiven
    obtain ⟨_, hchecked, h⟩ := bind_eq_ok.1 h
    obtain rfl := Except.ok.inj h
    have hvalid := require_eq_ok.1 hchecked
    simp only [Bool.and_eq_true, decide_eq_true_eq, Bool.not_eq_true', List.contains_eq_mem,
      decide_eq_false_iff_not] at hvalid
    exact ⟨rfl, hvalid.1.1, hvalid.1.2, hvalid.2⟩
  · rintro ⟨rfl, hne, hlength, hdeictic⟩
    refine bind_eq_ok.2 ⟨value, rfl, bind_eq_ok.2 ⟨(), require_eq_ok.2 ?_, rfl⟩⟩
    simp [hne, hlength, hdeictic]

/-- The name of a list means the same collection however often it is canonicalized: the name that
is approved is the one that the call goes on with. -/
structure SameCollection (value : Str) : Prop where
  stable : ∀ n, normalizeListName^[n + 1] value = normalizeListName value
  executed : ∀ name, collectionName (.str value) = .ok name → collectionName (.str name) = .ok name

theorem sameCollection_iff (value : Str) :
    SameCollection value ↔ ¬RepeatedAffix (cleanName value) := by
  rw [← normalizeListName_idem_iff]
  constructor
  · intro h
    exact h.stable 1
  · intro hsame
    refine ⟨fun n => ?_, fun name hname => ?_⟩
    · rw [Function.iterate_succ_apply, Function.iterate_fixed hsame]
    · obtain ⟨rfl, hvalid⟩ := collectionName_eq_ok.1 hname
      exact collectionName_eq_ok.2 ⟨hsame, hvalid⟩

omit [PythonText] in
/-- The approved collection is not there, and the call goes on with another one. -/
theorem approved_name_changes :
    @collectionName asciiText (.str "the my books") = .ok "my books" ∧
      @collectionName asciiText (.str "my books") = .ok "books" ∧
      ∃ row : ListRow, recordsForName [row] "my books" = [] ∧
        recordsForName [row] "books" = [row] ∧
      ¬@SameCollection asciiText "the my books" := by
  have happroved : @collectionName asciiText (.str "the my books") = .ok "my books" := by
    decide +kernel
  have hexecuted : @collectionName asciiText (.str "my books") = .ok "books" := by decide +kernel
  let row : ListRow :=
    { listId := "list-1", ownerUserId := "owner", listName := "books"
      listNameNormalized := "books", createdBy := "owner", createdAt := [], updatedAt := [] }
  refine ⟨happroved, hexecuted, row, by decide +kernel, by decide +kernel, fun h => ?_⟩
  have hsame := (@SameCollection.executed asciiText _ h _ happroved).symm.trans hexecuted
  exact absurd hsame (by decide +kernel)

end Claim

end HardyAI.Lists
