import HardyAI.PrivateNotes.Messages

/-! The parts of a message hold the text in its order: all of it, or what comes before the notice
that the rest was left out. -/

open Foundation

namespace HardyAI.PrivateNotes

section Ink

/-- The characters of a text that are no blanks. -/
def ink (s : Str) : Str := s.filter fun c => !isSpace c

theorem ink_append (s t : Str) : ink (s ++ t) = ink s ++ ink t := List.filter_append s t

theorem ink_eq_nil {s : Str} (h : ∀ c ∈ s, isSpace c = true) : ink s = [] :=
  List.filter_eq_nil_iff.2 fun c hc => by simp [h c hc]

theorem ink_dropWhile (s : Str) : ink (s.dropWhile isSpace) = ink s := by
  have hblank : ink (s.takeWhile isSpace) = [] := ink_eq_nil fun _ hc => List.mem_takeWhile_imp hc
  calc ink (s.dropWhile isSpace) = ink (s.takeWhile isSpace) ++ ink (s.dropWhile isSpace) := by
        rw [hblank, List.nil_append]
    _ = ink s := by rw [← ink_append, List.takeWhile_append_dropWhile]

theorem ink_rstrip (s : Str) : ink (rstrip s) = ink s := by
  have hreverse : ink (s.reverse.dropWhile isSpace) = ink s.reverse := ink_dropWhile s.reverse
  rw [rstrip, List.rdropWhile, ink, List.filter_reverse]
  rw [ink, ink, List.filter_reverse] at hreverse
  rw [hreverse, List.reverse_reverse]
  rfl

theorem ink_strip (s : Str) : ink (strip s) = ink s :=
  (ink_rstrip (s.dropWhile isSpace)).trans (ink_dropWhile s)

theorem length_rstrip_le (s : Str) : (rstrip s).length ≤ s.length :=
  (List.rdropWhile_prefix isSpace s).length_le

theorem length_strip_le (s : Str) : (strip s).length ≤ s.length :=
  (length_rstrip_le (s.dropWhile isSpace)).trans (List.dropWhile_suffix isSpace).length_le

/-- What is left of a text after stripping shows something. -/
theorem ink_ne_nil {s : Str} (hs : strip s = s) (hne : s ≠ []) : ink s ≠ [] := by
  obtain ⟨c, rest, rfl⟩ := List.exists_cons_of_ne_nil hne
  have hc : isSpace c = false := head_strip (c :: rest) c (by rw [hs]; rfl)
  intro hnil
  have hspace := List.filter_eq_nil_iff.1 hnil c List.mem_cons_self
  rw [hc] at hspace
  exact hspace rfl

end Ink

section Cuts

variable {maxChars maxParts n : Nat} {s : Str}

theorem rfind_lt {sub : Str} {limit i : Nat} (hsub : sub ≠ []) (h : rfind sub s limit = some i) :
    i < limit := by
  have hfound := List.find?_some h
  rw [Bool.and_eq_true, decide_eq_true_eq] at hfound
  have hpos := List.length_pos_iff_ne_nil.2 hsub
  omega

/-- No part is cut behind the limit. -/
theorem boundary_le (maxChars : Nat) (s : Str) : boundary maxChars s ≤ maxChars := by
  have hfind (sub : Str) (hsub : sub ≠ []) : ∀ i ∈ rfind sub s (maxChars + 1), i ≤ maxChars :=
    fun i hi => Nat.le_of_lt_succ (rfind_lt hsub hi)
  have hor (found later : Option Nat) (hfound : ∀ i ∈ found, i ≤ maxChars)
      (hlater : ∀ i ∈ later, i ≤ maxChars) :
      ∀ i ∈ if found.all (· < maxChars / 2) then later else found, i ≤ maxChars := by
    split
    · exact hlater
    · exact hfound
  have hcut (found : Option Nat) (hfound : ∀ i ∈ found, i ≤ maxChars) :
      cutAt maxChars found ≤ maxChars := by
    unfold cutAt
    split
    · exact le_rfl
    · cases found with
      | none => exact Nat.zero_le _
      | some i => exact hfound i rfl
  refine hcut _ (hor _ _ (hor _ _ (hfind _ ?_) (hfind _ ?_)) (hfind _ ?_)) <;>
    exact List.cons_ne_nil _ _

/-- What the loop keeps: as many parts as it may make, none of them empty or too long, and in them
and in what remains the characters of the text. -/
structure CutsWell (maxChars n : Nat) (s : Str) (cut : List Str × Str) : Prop where
  count : cut.1.length ≤ n
  fit : ∀ part ∈ cut.1, part ≠ [] ∧ part.length ≤ maxChars
  ink_eq : ink cut.1.flatten ++ ink cut.2 = ink s
  rest : cut.2 ≠ [] → ink cut.2 ≠ []
  some : s ≠ [] → 0 < n → cut.1 ≠ []

theorem cutParts_spec (hmax : 0 < maxChars) (hs : strip s = s) :
    CutsWell maxChars n s (cutParts maxChars n s) := by
  induction n generalizing s with
  | zero =>
    exact {
      count := le_rfl
      fit := fun _ hpart => absurd hpart List.not_mem_nil
      ink_eq := rfl
      rest := ink_ne_nil hs
      some := fun _ hpos => absurd hpos (lt_irrefl 0) }
  | succ n ih =>
    rw [cutParts]
    split
    · next hnil =>
      subst hnil
      exact {
        count := Nat.zero_le _
        fit := fun _ hpart => absurd hpart List.not_mem_nil
        ink_eq := rfl
        rest := fun h => absurd rfl h
        some := fun h => absurd rfl h }
    · next hne =>
      split
      · next hshort =>
        exact {
          count := Nat.succ_le_succ (Nat.zero_le n)
          fit := by
            intro part hpart
            rw [List.mem_singleton.1 hpart]
            exact ⟨hne, hshort⟩
          ink_eq := by simp [ink]
          rest := fun h => absurd rfl h
          some := fun _ _ => List.cons_ne_nil _ _ }
      · have hcut := boundary_le maxChars s
        have hpos := boundary_pos (s := s) hmax
        have hrest := ih (strip_strip (s.drop (boundary maxChars s)))
        have hpart : ink (strip (s.take (boundary maxChars s))) = ink (s.take (boundary maxChars s)) :=
          ink_strip _
        have hlength : (strip (s.take (boundary maxChars s))).length ≤ maxChars :=
          (length_strip_le _).trans ((List.length_take_le _ _).trans hcut)
        have hsome : strip (s.take (boundary maxChars s)) ≠ [] := by
          obtain ⟨c, rest, hshape⟩ := List.exists_cons_of_ne_nil hne
          obtain ⟨k, hk⟩ := Nat.exists_eq_succ_of_ne_zero hpos.ne'
          have hc : isSpace c = false := head_strip s c (by rw [hs, hshape]; rfl)
          refine strip_ne_nil (c := c) ?_ hc
          rw [hk, hshape, List.take_succ_cons]
          exact List.mem_cons_self
        exact {
          count := Nat.succ_le_succ hrest.count
          fit := by
            intro part hmem
            rcases List.mem_cons.1 hmem with rfl | hmem
            · exact ⟨hsome, hlength⟩
            · exact hrest.fit part hmem
          ink_eq := by
            rw [List.flatten_cons, ink_append, List.append_assoc, hrest.ink_eq, hpart, ink_strip,
              ← ink_append, List.take_append_drop]
          rest := hrest.rest
          some := fun _ _ => List.cons_ne_nil _ _ }

end Cuts

section Claim

variable {maxChars maxParts : Nat}

/-- The last part ends with the notice. -/
def EndsInNotice (parts : List Str) : Prop :=
  ∃ last, parts.getLast? = some last ∧ shortenedNotice <:+ last

/-- The parts of a text are few, not empty and not too long. They hold the characters of the text,
or some first ones of them and the notice for those that are left. Nothing but a rest that the
parts have no room for changes them. -/
structure SplitsWell (maxChars maxParts : Nat) (s : Str) (parts : List Str) : Prop where
  count : parts.length ≤ maxParts
  fit : ∀ part ∈ parts, part ≠ [] ∧ part.length ≤ maxChars
  whole : ¬EndsInNotice parts → ink parts.flatten = ink s
  cut : EndsInNotice parts → ∃ front left, ink s = front ++ left ∧ left ≠ [] ∧
    ink parts.flatten = front ++ ink shortenedNotice
  added : ink parts.flatten ≠ ink s → isShortened maxChars maxParts s = true

theorem ink_shortenedNotice : ink shortenedNotice ≠ [] := by decide +kernel

theorem withNotice_append (maxChars : Nat) (front : List Str) (last : Str) :
    withNotice maxChars (front ++ [last]) =
      front ++ [rstrip (last.take (maxChars - shortenedNotice.length)) ++ shortenedNotice] := by
  rw [withNotice, List.dropLast_concat, List.getLast?_concat]
  rfl

theorem filter_ne_nil {parts : List Str} (h : ∀ part ∈ parts, part ≠ []) :
    parts.filter (fun part => part ≠ []) = parts :=
  List.filter_eq_self.2 fun part hpart => decide_eq_true (h part hpart)

/-- Parts that leave nothing out are the parts of the message. -/
theorem splitsWell_whole {n : Nat} {s : Str} {parts : List Str} (hn : n ≤ maxParts)
    (h : CutsWell maxChars n (strip s) (parts, [])) : SplitsWell maxChars maxParts s parts := by
  have hink : ink parts.flatten = ink s := by
    have hsame := h.ink_eq
    rw [ink_strip] at hsame
    exact (List.append_nil _).symm.trans hsame
  refine ⟨h.count.trans hn, h.fit, fun _ => hink, ?_, fun hne => absurd hink hne⟩
  rintro ⟨last, hlast, start, rfl⟩
  obtain ⟨front, rfl⟩ := List.getLast?_eq_some_iff.1 hlast
  have hsplit : ink (front ++ [start ++ shortenedNotice]).flatten =
      ink (front.flatten ++ start) ++ ink shortenedNotice := by
    simp [ink]
  exact ⟨ink (front.flatten ++ start), ink shortenedNotice, hink.symm.trans hsplit,
    ink_shortenedNotice, hsplit⟩

/-- The notice takes the place of the end of the last part and of what remains. -/
theorem splitsWell_cut {n : Nat} {s last rest : Str} {front : List Str} (hn : n ≤ maxParts)
    (hroom : shortenedNotice.length ≤ maxChars) (hrest : rest ≠ [])
    (hshort : isShortened maxChars maxParts s = true)
    (h : CutsWell maxChars n (strip s) (front ++ [last], rest)) :
    SplitsWell maxChars maxParts s (withNotice maxChars (front ++ [last])) := by
  have hcount : (front ++ [last]).length ≤ n := h.count
  rw [withNotice_append]
  generalize hkept : last.take (maxChars - shortenedNotice.length) = kept
  have hlast : last = kept ++ last.drop (maxChars - shortenedNotice.length) := by
    rw [← hkept, List.take_append_drop]
  have hlength : (rstrip kept).length ≤ maxChars - shortenedNotice.length := by
    have htake : kept.length ≤ maxChars - shortenedNotice.length := by
      rw [← hkept]
      exact List.length_take_le _ _
    exact (length_rstrip_le kept).trans htake
  have hink : ink (front ++ [rstrip kept ++ shortenedNotice]).flatten =
      ink (front.flatten ++ kept) ++ ink shortenedNotice := by
    rw [List.flatten_append, List.flatten_singleton, ink_append, ink_append, ink_append, ink_rstrip,
      List.append_assoc]
  have hends : EndsInNotice (front ++ [rstrip kept ++ shortenedNotice]) :=
    ⟨_, List.getLast?_concat, List.suffix_append _ _⟩
  exact {
    count := by
      rw [List.length_append, List.length_singleton] at hcount ⊢
      exact hcount.trans hn
    fit := by
      intro part hpart
      rcases List.mem_append.1 hpart with hpart | hpart
      · exact h.fit part (List.mem_append_left _ hpart)
      · rw [List.mem_singleton.1 hpart]
        refine ⟨List.append_ne_nil_of_right_ne_nil _ shortenedNotice_ne_nil, ?_⟩
        rw [List.length_append]
        omega
    whole := fun hnot => absurd hends hnot
    cut := by
      intro _
      refine ⟨ink (front.flatten ++ kept),
        ink (last.drop (maxChars - shortenedNotice.length)) ++ ink rest, ?_, ?_, hink⟩
      · have hsame : ink (front ++ [last]).flatten ++ ink rest = ink s :=
          h.ink_eq.trans (ink_strip s)
        have hpieces : ink last = ink kept ++ ink (last.drop (maxChars - shortenedNotice.length)) := by
          rw [← ink_append, ← hlast]
        rw [← hsame, List.flatten_append, List.flatten_singleton, ink_append, ink_append, hpieces]
        simp only [List.append_assoc]
      · exact List.append_ne_nil_of_right_ne_nil _ (h.rest hrest)
    added := fun _ => hshort }

end Claim

end HardyAI.PrivateNotes
