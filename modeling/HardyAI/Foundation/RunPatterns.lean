import Mathlib.Data.List.DropRight
import Mathlib.Data.List.TakeWhile

/-! Substitution for a pattern whose matches are runs: one of several heads, and after it as many
characters as follow before an end. A text is taken apart at its ends, since no match crosses
one. -/

namespace Foundation

variable {α : Type*}

/-- The heads that a match may begin with, and the characters that end it. -/
structure RunPattern (α : Type*) where
  heads : List (List (α → Bool))
  ends : α → Bool
  head_ne_nil : ∀ head ∈ heads, head ≠ []
  head_of_ends : ∀ head ∈ heads, ∀ p ∈ head, ∀ c, ends c = true → p c = false

@[grind =]
def headMatches : List (α → Bool) → List α → Bool
  | [], _ => true
  | _ :: _, [] => false
  | p :: ps, c :: s => p c && headMatches ps s

namespace RunPattern

variable (r : RunPattern α)

/-- What follows a head before the next end. -/
@[grind =]
def body (head : List (α → Bool)) (s : List α) : List α :=
  (s.drop head.length).takeWhile fun c => !r.ends c

@[grind =]
def matchHead (s : List α) (head : List (α → Bool)) : Option (List α) :=
  if headMatches head s && !(r.body head s).isEmpty then some (s.take head.length ++ r.body head s)
  else none

/-- The match at the start of a text: the heads are tried in their order. -/
def matchAt (s : List α) : Option (List α) := r.heads.findSome? (r.matchHead s)

/-- The characters outside the matches and the matches, from left to right, after some characters
that a match has taken. -/
@[grind =]
def scan : Nat → List α → List (α ⊕ List α)
  | _, [] => []
  | skip + 1, _ :: s => scan skip s
  | 0, c :: s =>
    match r.matchAt (c :: s) with
    | some m => .inr m :: scan (m.length - 1) s
    | none => .inl c :: scan 0 s

/-- The substitution of the matches. -/
@[grind =]
def sub (f : List α → List α) (s : List α) : List α :=
  (r.scan 0 s).flatMap (Sum.elim (fun c => [c]) f)

@[grind =]
def found (s : List α) : List (List α) := (r.scan 0 s).filterMap Sum.getRight?

end RunPattern

section Heads

variable {head : List (α → Bool)} {s t x y : List α} {c : α}

theorem length_le_of_headMatches (h : headMatches head s = true) : head.length ≤ s.length := by
  induction head generalizing s with
  | nil => exact Nat.zero_le _
  | cons p ps ih =>
    cases s with
    | nil => cases h
    | cons c s =>
      rw [headMatches, Bool.and_eq_true] at h
      exact Nat.succ_le_succ (ih h.2)

theorem headMatches_append (h : headMatches head s = true) (t : List α) :
    headMatches head (s ++ t) = true := by
  induction head generalizing s with
  | nil => rfl
  | cons p ps ih =>
    cases s with
    | nil => cases h
    | cons c s =>
      rw [headMatches, Bool.and_eq_true] at h
      rw [List.cons_append, headMatches, Bool.and_eq_true]
      exact ⟨h.1, ih h.2⟩

/-- A head does not reach beyond a character that none of it accepts. -/
theorem headMatches_append_cons (hc : ∀ p ∈ head, p c = false) (x y : List α) :
    headMatches head (x ++ c :: y) = headMatches head x := by
  induction head generalizing x with
  | nil => rfl
  | cons p ps ih =>
    have hrest : ∀ q ∈ ps, q c = false := fun q hq => hc q (List.mem_cons_of_mem p hq)
    cases x with
    | nil =>
      show (p c && headMatches ps y) = false
      rw [hc p List.mem_cons_self, Bool.false_and]
    | cons a x => rw [List.cons_append, headMatches, headMatches, ih hrest]

theorem findSome?_congr {β γ : Type*} {f g : β → Option γ} {xs : List β}
    (h : ∀ a ∈ xs, f a = g a) : xs.findSome? f = xs.findSome? g := by
  induction xs with
  | nil => rfl
  | cons a xs ih =>
    rw [List.findSome?_cons, List.findSome?_cons, h a List.mem_cons_self,
      ih fun b hb => h b (List.mem_cons_of_mem a hb)]

theorem takeWhile_append_cons {p : α → Bool} (hc : p c = false) (x y : List α) :
    (x ++ c :: y).takeWhile p = x.takeWhile p := by
  induction x with
  | nil => rw [List.nil_append, List.takeWhile_cons_of_neg (by simp [hc]), List.takeWhile_nil]
  | cons a x ih =>
    rw [List.cons_append, List.takeWhile_cons, List.takeWhile_cons, ih]

end Heads

namespace RunPattern

variable {r : RunPattern α} {f : List α → List α} {s x y w m : List α} {c : α}
  {head : List (α → Bool)} {k : Nat}

section Matches

theorem matchHead_eq_some : r.matchHead s head = some m ↔
    headMatches head s = true ∧ r.body head s ≠ [] ∧ m = s.take head.length ++ r.body head s := by
  unfold matchHead
  split
  · next h =>
    simp only [Bool.and_eq_true, Bool.not_eq_true', List.isEmpty_eq_false_iff] at h
    rw [Option.some.injEq, eq_comm]
    exact ⟨fun hm => ⟨h.1, h.2, hm⟩, fun hm => hm.2.2⟩
  · next h =>
    simp only [Bool.and_eq_true, Bool.not_eq_true', List.isEmpty_eq_false_iff] at h
    exact ⟨nofun, fun hm => absurd ⟨hm.1, hm.2.1⟩ h⟩

theorem matchAt_eq_some (h : r.matchAt s = some m) : ∃ head ∈ r.heads,
    headMatches head s = true ∧ r.body head s ≠ [] ∧ m = s.take head.length ++ r.body head s := by
  obtain ⟨head, hhead, hm⟩ := List.exists_of_findSome?_eq_some h
  exact ⟨head, hhead, matchHead_eq_some.1 hm⟩

theorem matchAt_eq_none : r.matchAt s = none ↔
    ∀ head ∈ r.heads, headMatches head s = true → r.body head s = [] := by
  rw [matchAt, List.findSome?_eq_none_iff]
  refine forall₂_congr fun head _ => ?_
  rw [Option.eq_none_iff_forall_ne_some]
  constructor
  · intro hnone hmatch
    by_contra hbody
    exact hnone _ (matchHead_eq_some.2 ⟨hmatch, hbody, rfl⟩)
  · intro hbody m hm
    obtain ⟨hmatch, hne, -⟩ := matchHead_eq_some.1 hm
    exact hne (hbody hmatch)

theorem length_of_matchAt (h : r.matchAt s = some m) : m ≠ [] ∧ m.length ≤ s.length := by
  obtain ⟨head, -, -, hbody, rfl⟩ := matchAt_eq_some h
  refine ⟨fun hnil => hbody (List.append_eq_nil_iff.1 hnil).2, ?_⟩
  have hle : (r.body head s).length ≤ (s.drop head.length).length :=
    (List.takeWhile_prefix _).length_le
  rw [List.length_append, List.length_take]
  rw [List.length_drop] at hle
  omega

/-- A match does not see what stands from the next end on. -/
theorem matchAt_append_cons (hc : r.ends c = true) (x y : List α) :
    r.matchAt (x ++ c :: y) = r.matchAt x := by
  have hsame : ∀ head ∈ r.heads, r.matchHead (x ++ c :: y) head = r.matchHead x head := by
    intro head hhead
    have hhd := headMatches_append_cons (fun p hp => r.head_of_ends head hhead p hp c hc) x y
    by_cases hmatch : headMatches head x = true
    · have hlength := length_le_of_headMatches hmatch
      have hbody : r.body head (x ++ c :: y) = r.body head x := by
        rw [body, body, List.drop_append_of_le_length hlength]
        exact takeWhile_append_cons (by rw [hc]; rfl) _ _
      rw [matchHead, matchHead, hhd, hbody, List.take_append_of_le_length hlength]
    · rw [Bool.not_eq_true] at hmatch
      rw [matchHead, matchHead, hhd, hmatch, Bool.false_and, Bool.false_and,
        if_neg Bool.false_ne_true, if_neg Bool.false_ne_true]
  exact findSome?_congr hsame

end Matches

section Ends

theorem matchAt_nil : r.matchAt [] = none := by
  rw [matchAt_eq_none]
  intro head _ _
  rw [body, List.drop_nil, List.takeWhile_nil]

theorem scan_append_cons (hc : r.ends c = true) (hk : k ≤ x.length) :
    r.scan k (x ++ c :: y) = r.scan k x ++ .inl c :: r.scan 0 y := by
  induction x generalizing k with
  | nil =>
    obtain rfl : k = 0 := Nat.le_zero.1 hk
    have hnone : r.matchAt (c :: y) = none := (matchAt_append_cons hc [] y).trans matchAt_nil
    simp only [List.nil_append, scan, hnone]
  | cons a x ih =>
    cases k with
    | succ k =>
      rw [List.cons_append, scan, scan]
      exact ih (Nat.le_of_succ_le_succ hk)
    | zero =>
      have hsame := matchAt_append_cons hc (a :: x) y
      rw [List.cons_append] at hsame
      rw [List.cons_append, scan, scan, hsame]
      cases hm : r.matchAt (a :: x) with
      | none =>
        show .inl a :: r.scan 0 (x ++ c :: y) = _
        rw [ih (Nat.zero_le _)]
        rfl
      | some m =>
        have hlength := (length_of_matchAt hm).2
        rw [List.length_cons] at hlength
        show .inr m :: r.scan (m.length - 1) (x ++ c :: y) = _
        rw [ih (by omega)]
        rfl

/-- The substitution works on what stands before an end and on what stands after it. -/
theorem sub_append_cons (hc : r.ends c = true) :
    r.sub f (x ++ c :: y) = r.sub f x ++ c :: r.sub f y := by
  rw [sub, scan_append_cons hc (Nat.zero_le _), List.flatMap_append, List.flatMap_cons]
  rfl

theorem found_append_cons (hc : r.ends c = true) :
    r.found (x ++ c :: y) = r.found x ++ r.found y := by
  rw [found, scan_append_cons hc (Nat.zero_le _), List.filterMap_append]
  rfl

/-- A text is a word without ends, or such a word, an end and a text. -/
theorem word_induction {P : List α → Prop} (hword : ∀ w, (∀ c ∈ w, r.ends c = false) → P w)
    (hstep : ∀ w c s, (∀ c ∈ w, r.ends c = false) → r.ends c = true → P s → P (w ++ c :: s))
    (s : List α) : P s := by
  have hall : ∀ w, (∀ c ∈ w, r.ends c = false) → P (w ++ s) := by
    induction s with
    | nil =>
      intro w hw
      rw [List.append_nil]
      exact hword w hw
    | cons c s ih =>
      intro w hw
      cases hc : r.ends c with
      | true => exact hstep w c s hw hc (ih [] nofun)
      | false =>
        rw [List.append_cons]
        refine ih (w ++ [c]) fun a ha => ?_
        rcases List.mem_append.1 ha with hold | hnew
        · exact hw a hold
        · rw [List.mem_singleton.1 hnew]
          exact hc
  exact hall [] nofun

end Ends

section Words

theorem scan_of_length_le (h : s.length ≤ k) : r.scan k s = [] := by
  induction s generalizing k with
  | nil => cases k <;> rfl
  | cons c s ih =>
    cases k with
    | zero => cases h
    | succ k =>
      rw [scan]
      exact ih (Nat.le_of_succ_le_succ h)

/-- Within a word a match reaches to its end. -/
theorem eq_of_matchAt_word (hw : ∀ c ∈ w, r.ends c = false) (h : r.matchAt w = some m) : m = w := by
  obtain ⟨head, -, -, -, rfl⟩ := matchAt_eq_some h
  have hbody : r.body head w = w.drop head.length := by
    rw [body, List.takeWhile_eq_self_iff]
    intro c hc
    rw [hw c (List.mem_of_mem_drop hc)]
    rfl
  rw [hbody, List.take_append_drop]

/-- Where a match begins with something, so it does before any other text that goes on. -/
theorem matchAt_isSome_of_head (hw : ∀ c ∈ s ++ w, r.ends c = false) (hne : w ≠ [])
    (hhead : head ∈ r.heads) (hmatch : headMatches head s = true) :
    (r.matchAt (s ++ w)).isSome = true := by
  rw [Option.isSome_iff_ne_none, Ne, matchAt_eq_none]
  intro hnone
  have hbody := hnone head hhead (headMatches_append hmatch w)
  rw [body, List.drop_append_of_le_length (length_le_of_headMatches hmatch)] at hbody
  have hwhole : (s.drop head.length ++ w).takeWhile (fun c => !r.ends c) =
      s.drop head.length ++ w := by
    rw [List.takeWhile_eq_self_iff]
    intro c hc
    have hmem : c ∈ s ++ w := by
      rcases List.mem_append.1 hc with hs | hw
      · exact List.mem_append_left _ (List.mem_of_mem_drop hs)
      · exact List.mem_append_right _ hw
    rw [hw c hmem]
    rfl
  rw [hwhole] at hbody
  exact hne (List.append_eq_nil_iff.1 hbody).2

/-- No head accepts the character anywhere. -/
def Marks (r : RunPattern α) (c : α) : Prop := ∀ head ∈ r.heads, ∀ p ∈ head, p c = false

/-- No head begins with the character. -/
def Quiet (r : RunPattern α) (c : α) : Prop := ∀ head ∈ r.heads, ∀ p ∈ head.head?, p c = false

/-- A word has no match, or ends with its only one; what stands before the match has none before
a mark either. -/
inductive WordCase (r : RunPattern α) (w : List α) : Prop
  | plain (h : r.scan 0 w = w.map .inl)
  | matched (before m : List α) (hsplit : w = before ++ m) (hne : m ≠ [])
      (h : r.scan 0 w = before.map .inl ++ [.inr m])
      (hmark : ∀ c z, r.Marks c → r.scan 0 (before ++ c :: z) = before.map .inl ++ r.scan 0 (c :: z))

theorem word_case (hw : ∀ c ∈ w, r.ends c = false) : WordCase r w := by
  induction w with
  | nil => exact .plain rfl
  | cons a w ih =>
    cases hm : r.matchAt (a :: w) with
    | some m =>
      obtain rfl := eq_of_matchAt_word hw hm
      refine .matched [] (a :: w) rfl (List.cons_ne_nil a w) ?_ fun _ _ _ => rfl
      simp only [scan, hm]
      rw [scan_of_length_le (by simp)]
      rfl
    | none =>
      cases ih fun c hc => hw c (List.mem_cons_of_mem a hc) with
      | plain h =>
        refine .plain ?_
        simp only [scan, hm, h]
        rfl
      | matched before m hsplit hne h hmark =>
        refine .matched (a :: before) m (by rw [hsplit]; rfl) hne ?_ fun c z hc => ?_
        · simp only [scan, hm, h]
          rfl
        · have hnone : r.matchAt (a :: before ++ c :: z) = none := by
            rw [matchAt_eq_none]
            intro head hhead hmatch
            rw [headMatches_append_cons (hc head hhead)] at hmatch
            have hwhole : a :: w = a :: before ++ m := by rw [hsplit]; rfl
            have hsome := matchAt_isSome_of_head (hwhole ▸ hw) hne hhead hmatch
            rw [← hwhole, hm] at hsome
            cases hsome
          rw [List.cons_append] at hnone
          simp only [List.cons_append, scan, hnone, hmark c z hc]
          rfl

/-- A text of quiet characters has no match. -/
theorem scan_of_quiet (hs : ∀ c ∈ s, r.Quiet c) : r.scan 0 s = s.map .inl := by
  induction s with
  | nil => rfl
  | cons c s ih =>
    have hnone : r.matchAt (c :: s) = none := by
      rw [matchAt_eq_none]
      intro head hhead hmatch
      cases hshape : head with
      | nil => exact absurd hshape (r.head_ne_nil head hhead)
      | cons p ps =>
        have hp := hs c List.mem_cons_self head hhead p (by rw [hshape]; rfl)
        rw [hshape, headMatches, hp] at hmatch
        cases hmatch
    simp only [scan, hnone, ih fun a ha => hs a (List.mem_cons_of_mem c ha)]
    rfl

theorem flatMap_inl (s : List α) :
    (s.map Sum.inl).flatMap (Sum.elim (fun c => [c]) f) = s := by
  rw [List.flatMap_map]
  exact List.flatMap_singleton' s

theorem filterMap_inl (s : List α) :
    (s.map (Sum.inl : α → α ⊕ List α)).filterMap Sum.getRight? = [] := by
  rw [List.filterMap_map, List.filterMap_eq_nil_iff]
  exact fun _ _ => rfl

end Words

section Redactions

/-- Which matches are kept, and what stands for the others: a mark that no head accepts, and after
it nothing that a head begins with. -/
structure Redaction (r : RunPattern α) where
  kept : List α → Bool
  mark : α
  rest : List α → List α
  marks : r.Marks mark
  quiet : ∀ m, ∀ c ∈ rest m, r.Quiet c

def Redaction.apply (d : Redaction r) (m : List α) : List α :=
  if d.kept m then m else d.mark :: d.rest m

variable {d : Redaction r}

/-- What a redaction makes of a word. -/
inductive RedactedWord (d : Redaction r) (w : List α) : Prop
  | same (h : r.sub d.apply w = w) (hkept : ∀ m ∈ r.found w, d.kept m = true)
  | cut (before m : List α) (hsplit : w = before ++ m) (hne : m ≠ []) (hfound : m ∈ r.found w)
      (hcut : d.kept m = false) (h : r.sub d.apply w = before ++ d.mark :: d.rest m)
      (hscan : r.scan 0 (r.sub d.apply w) = (r.sub d.apply w).map .inl)

theorem Marks.quiet (h : r.Marks c) : r.Quiet c := fun head hhead p hp =>
  h head hhead p (List.mem_of_mem_head? hp)

theorem redactedWord (d : Redaction r) (hw : ∀ c ∈ w, r.ends c = false) : RedactedWord d w := by
  cases word_case hw with
  | plain h =>
    refine .same (by rw [sub, h, flatMap_inl]) fun m hm => ?_
    rw [found, h, filterMap_inl] at hm
    cases hm
  | matched before m hsplit hne h hmark =>
    have hfound : r.found w = [m] := by
      rw [found, h, List.filterMap_append, filterMap_inl]
      rfl
    have hsub : r.sub d.apply w = before ++ d.apply m := by
      rw [sub, h, List.flatMap_append, flatMap_inl, List.flatMap_singleton]
      rfl
    cases hkept : d.kept m with
    | true =>
      refine .same (by rw [hsub, Redaction.apply, hkept, if_pos rfl, hsplit]) fun m' hm' => ?_
      rw [hfound, List.mem_singleton] at hm'
      rw [hm', hkept]
    | false =>
      rw [Redaction.apply, hkept, if_neg Bool.false_ne_true] at hsub
      have hquiet : ∀ c ∈ d.mark :: d.rest m, r.Quiet c := by
        intro c hc
        rcases List.mem_cons.1 hc with rfl | hrest
        · exact d.marks.quiet
        · exact d.quiet m c hrest
      refine .cut before m hsplit hne (by rw [hfound]; exact List.mem_singleton_self m) hkept hsub ?_
      rw [hsub, hmark d.mark (d.rest m) d.marks, scan_of_quiet hquiet, List.map_append]

/-- What is found in a redacted text is kept. -/
theorem kept_of_found_sub (s : List α) : ∀ m ∈ r.found (r.sub d.apply s), d.kept m = true := by
  have hword : ∀ w, (∀ c ∈ w, r.ends c = false) →
      ∀ m ∈ r.found (r.sub d.apply w), d.kept m = true := by
    intro w hw
    cases redactedWord d hw with
    | same h hkept =>
      rw [h]
      exact hkept
    | cut before m hsplit hne hfound hcut h hscan =>
      intro m' hm'
      rw [found, hscan, filterMap_inl] at hm'
      cases hm'
  induction s using word_induction (r := r) with
  | hword w hw => exact hword w hw
  | hstep w c s hw hc ih =>
    rw [sub_append_cons hc, found_append_cons hc]
    intro m hm
    rcases List.mem_append.1 hm with hm | hm
    · exact hword w hw m hm
    · exact ih m hm

/-- A redacted text is redacted once and for all. -/
theorem sub_sub (s : List α) : r.sub d.apply (r.sub d.apply s) = r.sub d.apply s := by
  have hword : ∀ w, (∀ c ∈ w, r.ends c = false) →
      r.sub d.apply (r.sub d.apply w) = r.sub d.apply w := by
    intro w hw
    cases redactedWord d hw with
    | same h hkept => rw [h, h]
    | cut before m hsplit hne hfound hcut h hscan =>
      rw [sub, hscan, flatMap_inl]
  induction s using word_induction (r := r) with
  | hword w hw => exact hword w hw
  | hstep w c s hw hc ih => rw [sub_append_cons hc, sub_append_cons hc, hword w hw, ih]

theorem matchAt_of_mem_scan (h : .inr m ∈ r.scan k s) : ∃ t, r.matchAt t = some m := by
  induction s generalizing k with
  | nil => cases k <;> cases h
  | cons c s ih =>
    cases k with
    | succ k => exact ih h
    | zero =>
      cases hm : r.matchAt (c :: s) with
      | none =>
        simp only [scan, hm, List.mem_cons, reduceCtorEq, false_or] at h
        exact ih h
      | some m' =>
        simp only [scan, hm, List.mem_cons, Sum.inr.injEq] at h
        rcases h with rfl | h
        · exact ⟨_, hm⟩
        · exact ih h

theorem head?_ne_of_matchAt (h : r.matchAt s = some m) (hc : r.Marks c) : m.head? ≠ some c := by
  obtain ⟨head, hhead, hmatch, -, rfl⟩ := matchAt_eq_some h
  cases hshape : head with
  | nil => exact absurd hshape (r.head_ne_nil head hhead)
  | cons p ps =>
    cases s with
    | nil =>
      rw [hshape] at hmatch
      cases hmatch
    | cons a s =>
      rw [hshape, headMatches, Bool.and_eq_true] at hmatch
      rw [List.length_cons, List.take_succ_cons, List.cons_append, List.head?_cons, Ne,
        Option.some.injEq]
      rintro rfl
      rw [hc head hhead p (by rw [hshape]; exact List.mem_cons_self)] at hmatch
      cases hmatch.1

theorem head?_ne_of_mem_found (h : m ∈ r.found s) (hc : r.Marks c) : m.head? ≠ some c := by
  obtain ⟨piece, hpiece, hm⟩ := List.mem_filterMap.1 h
  cases piece with
  | inl a => cases hm
  | inr m' =>
    obtain rfl := Option.some.inj hm
    obtain ⟨t, ht⟩ := matchAt_of_mem_scan hpiece
    exact head?_ne_of_matchAt ht hc

/-- A text that a redaction leaves as it is has only matches that are kept. -/
theorem sub_eq_self_iff : r.sub d.apply s = s ↔ ∀ m ∈ r.found s, d.kept m = true := by
  have hmark : ∀ {t m}, m ∈ r.found t → m.head? ≠ some d.mark :=
    fun hm => head?_ne_of_mem_found hm d.marks
  induction s using word_induction (r := r) with
  | hword w hw =>
    cases redactedWord d hw with
    | same h hkept => exact iff_of_true h hkept
    | cut before m hsplit hne hfound hcut h hscan =>
      refine iff_of_false (fun hsame => ?_) fun hkept => ?_
      · rw [h, hsplit] at hsame
        have hm := List.append_cancel_left hsame
        exact hmark hfound (by rw [← hm]; rfl)
      · rw [hkept m hfound] at hcut
        cases hcut
  | hstep w c s hw hc ih =>
    have hrest : r.sub d.apply s = s ↔ ∀ m ∈ r.found s, d.kept m = true := ih
    rw [found_append_cons hc, sub_append_cons hc]
    cases redactedWord d hw with
    | same h hkept =>
      rw [h, List.append_cancel_left_eq, List.cons.injEq, hrest]
      simp only [true_and, List.mem_append]
      constructor
      · rintro hall m (hm | hm)
        · exact hkept m hm
        · exact hall m hm
      · exact fun hall m hm => hall m (.inr hm)
    | cut before m hsplit hne hfound hcut h hscan =>
      refine iff_of_false (fun hsame => ?_) fun hkept => ?_
      · rw [h, hsplit, List.append_assoc, List.append_assoc] at hsame
        have hm := List.append_cancel_left hsame
        cases m with
        | nil => exact hne rfl
        | cons a m =>
          have hhead : d.mark = a := (List.cons.inj hm).1
          exact hmark hfound (by rw [hhead]; rfl)
      · rw [hkept m (List.mem_append_left _ hfound)] at hcut
        cases hcut

end Redactions

end RunPattern

end Foundation
