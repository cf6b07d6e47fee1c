import HardyAI.Skills.Descriptors

/-! Identifiers and the members of enumerations, which are folded as they are. -/

open Foundation Foundation.Json

namespace HardyAI.Skills

section Plain

/-- The characters of identifiers and of the members of enumerations. -/
def isPlain (c : CodePoint) : Bool := isWord c || c.val = 0x2E || c.val = 0x2D

theorem isPlain_bounds {c : CodePoint} (h : isPlain c = true) :
    0x2D ≤ c.val ∧ c.val < 0x7B ∧ ¬(0x41 ≤ c.val ∧ c.val ≤ 0x5A) := by
  simp only [isPlain, isWord, isLower, isDecimal, Bool.or_eq_true, Bool.and_eq_true,
    decide_eq_true_eq] at h
  omega

theorem isPlain_of_isWord {c : CodePoint} (h : isWord c = true) : isPlain c = true := by
  simp only [isPlain, h, Bool.true_or]

theorem isWord_of_isLower {c : CodePoint} (h : isLower c = true) : isWord c = true := by
  simp only [isWord, h, Bool.true_or]

theorem mem_of_partition {c d : CodePoint} {s : Str} (h : d ∈ s) :
    d ∈ (partition c s).1 ∨ d = c ∨ d ∈ (partition c s).2 := by
  induction s with
  | nil => exact absurd h List.not_mem_nil
  | cons x xs ih =>
    rw [partition]
    split
    · next hx =>
      rcases List.mem_cons.1 h with rfl | hd
      · exact .inr (.inl hx)
      · exact .inr (.inr hd)
    · rcases List.mem_cons.1 h with rfl | hd
      · exact .inl List.mem_cons_self
      · exact (ih hd).imp_left (List.mem_cons_of_mem x)

theorem isPlain_of_isName {limit : Nat} {s : Str} (h : isName limit s = true) :
    ∀ c ∈ s, isPlain c = true := by
  cases s with
  | nil => cases h
  | cons c s =>
    simp only [isName, Bool.and_eq_true, List.all_eq_true] at h
    obtain ⟨⟨hc, hs⟩, -⟩ := h
    exact List.forall_mem_cons.2
      ⟨isPlain_of_isWord (isWord_of_isLower hc), fun x hx => isPlain_of_isWord (hs x hx)⟩

theorem isPlain_of_isToolId {s : Str} (h : isToolId s = true) : ∀ c ∈ s, isPlain c = true := by
  simp only [isToolId, Bool.and_eq_true] at h
  obtain ⟨⟨-, hfirst⟩, hsecond⟩ := h
  intro c hc
  have hdot : isPlain dot = true := by decide
  rcases mem_of_partition hc with hc | hc | hc
  · exact isPlain_of_isName hfirst c hc
  · exact hc ▸ hdot
  · exact isPlain_of_isName hsecond c hc

theorem isPlain_of_isSkillId {s : Str} (h : isSkillId s = true) : ∀ c ∈ s, isPlain c = true := by
  have hskill : ∀ c ∈ text "skill.", isPlain c = true := List.all_eq_true.1 (by decide)
  unfold isSkillId at h
  split at h
  · cases h
  · next c cs hdrop =>
    simp only [Bool.and_eq_true, List.all_eq_true, Bool.or_eq_true, decide_eq_true_eq] at h
    obtain ⟨⟨⟨⟨hstarts, hc⟩, -⟩, -⟩, hcs⟩ := h
    obtain ⟨rest, rfl⟩ := List.isPrefixOf_iff_prefix.1 hstarts
    have hrest : rest = c :: cs := hdrop
    intro x hx
    rcases List.mem_append.1 hx with hx | hx
    · exact hskill x hx
    · rcases List.mem_cons.1 (hrest ▸ hx) with rfl | hx
      · exact isPlain_of_isWord (isWord_of_isLower hc)
      · simp only [isPlain, Bool.or_eq_true, decide_eq_true_eq]
        exact hcs x hx

variable [PythonText] {s : Str}

theorem fold_of_plain (h : ∀ c ∈ s, isPlain c = true) : fold s = s := by
  have hspace : ∀ c ∈ s, isSpace c = false := by
    intro c hc
    have hbounds := isPlain_bounds (h c hc)
    simp only [isSpace, Bool.or_eq_false_iff, Bool.and_eq_false_iff, decide_eq_false_iff_not,
      beq_eq_false_iff_ne]
    omega
  have hascii : isAscii s = true := by
    rw [isAscii, List.all_eq_true]
    intro c hc
    have hbounds := isPlain_bounds (h c hc)
    rw [decide_eq_true_eq]
    omega
  rw [fold, strip_of_forall hspace, PythonText.casefold_ascii s hascii]
  conv_rhs => rw [← List.map_id s]
  refine List.map_congr_left fun c hc => ?_
  have hbounds := isPlain_bounds (h c hc)
  rw [asciiLower, dif_neg hbounds.2.2]
  rfl

theorem fold_of_isToolId (h : isToolId s = true) : fold s = s :=
  fold_of_plain (isPlain_of_isToolId h)

theorem fold_of_isSkillId (h : isSkillId s = true) : fold s = s :=
  fold_of_plain (isPlain_of_isSkillId h)

/-- A folded item of a table is folded as it is. -/
theorem fold_of_table {table : List Str} (h : table.all (fun s => s.all isPlain) = true)
    (hs : s ∈ table) : fold s = s :=
  fold_of_plain (List.all_eq_true.1 (List.all_eq_true.1 h s hs))

theorem foldItem_str (s : Str) (h : fold s = s) : foldItem (.str s) = .ok s := by
  rw [foldItem, map_eq_ok]
  by_cases hs : s = []
  · subst hs
    exact ⟨[], rfl, h⟩
  · exact ⟨s, by rw [textOr, truthy, if_pos (decide_eq_true hs), pyStr], h⟩

/-- What was folded from some items is folded from itself. -/
theorem foldItems_again {most : Nat} {allowed : Str → Bool} {items : List Json} {code : String}
    {folded : List Str} (hallowed : ∀ s, allowed s = true → fold s = s)
    (h : foldItems most allowed items code = .ok folded) :
    foldItems most allowed (folded.map .str) code = .ok folded := by
  simp only [foldItems, bind_eq_ok, require_eq_ok] at h
  obtain ⟨_, -, -, hvalid, h⟩ := h
  cases h
  simp only [foldItems, bind_eq_ok, require_eq_ok]
  rw [decide_eq_true_eq, List.all_eq_true] at hvalid
  refine ⟨folded, mapM_map_eq_ok fun s hs => foldItem_str s (hallowed s (hvalid.2.2 s hs)), (), ?_,
    rfl⟩
  rwa [decide_eq_true_eq, List.all_eq_true]

end Plain

end HardyAI.Skills
