import HardyAI.Foundation.Blanks

/-! A digest as the parts of a message, none longer than the service allows. -/

open Foundation

namespace HardyAI.PrivateNotes

section Splitting

/-- `s.rfind(sub, 0, limit)`, or `none` for `-1`. -/
def rfind (sub s : Str) (limit : Nat) : Option Nat :=
  (List.range (min limit s.length + 1)).reverse.find? fun i =>
    i + sub.length ≤ min limit s.length && sub.isPrefixOf (s.drop i)

/-- A separator at the start or none at all cuts as late as the length allows. -/
def cutAt (maxChars : Nat) (found : Option Nat) : Nat :=
  if found.getD 0 = 0 then maxChars else found.getD 0

/-- The first of the separators that stands in the second half, and else the last one. -/
def boundary (maxChars : Nat) (remaining : Str) : Nat :=
  let paragraph := rfind (text "\n\n") remaining (maxChars + 1)
  let line := if paragraph.all (· < maxChars / 2) then
    rfind (text "\n") remaining (maxChars + 1) else paragraph
  let word := if line.all (· < maxChars / 2) then
    rfind (text " ") remaining (maxChars + 1) else line
  cutAt maxChars word

/-- The parts, and what remains when there may be no more of them. -/
def cutParts (maxChars : Nat) : Nat → Str → List Str × Str
  | 0, remaining => ([], remaining)
  | n + 1, remaining =>
    if remaining = [] then ([], [])
    else if remaining.length ≤ maxChars then ([remaining], [])
    else
      let cut := boundary maxChars remaining
      let rest := cutParts maxChars n (strip (remaining.drop cut))
      (strip (remaining.take cut) :: rest.1, rest.2)

def shortenedNotice : Str :=
  text "\n\n[Digest shortened; remaining notes stay queued for a later digest.]"

def rstrip (s : Str) : Str := s.rdropWhile isSpace

/-- The last part is cut so that the notice fits in. -/
def withNotice (maxChars : Nat) (parts : List Str) : List Str :=
  parts.dropLast ++ parts.getLast?.toList.map fun last =>
    rstrip (last.take (maxChars - shortenedNotice.length)) ++ shortenedNotice

/-- `split_discord_message`. -/
def splitDiscordMessage (maxChars maxParts : Nat) (s : Str) : List Str :=
  let cut := cutParts maxChars (max 1 maxParts) (strip s)
  (if cut.2 ≠ [] then withNotice maxChars cut.1 else cut.1).filter fun part => part ≠ []

/-- Something remains that does not fit in. -/
def isShortened (maxChars maxParts : Nat) (s : Str) : Bool :=
  (cutParts maxChars (max 1 maxParts) (strip s)).2 ≠ []

end Splitting

section Parts

variable {maxChars maxParts n : Nat} {s : Str}

theorem cutAt_pos (h : 0 < maxChars) (found : Option Nat) : 0 < cutAt maxChars found := by
  unfold cutAt
  split
  · exact h
  · omega

theorem boundary_pos (h : 0 < maxChars) : 0 < boundary maxChars s := cutAt_pos h _

theorem strip_ne_nil {s : Str} {c : CodePoint} (hc : c ∈ s) (hnot : isSpace c = false) :
    strip s ≠ [] := by
  intro hnil
  have hfront : c ∈ s.dropWhile isSpace := by
    have hmem : c ∈ s.takeWhile isSpace ++ s.dropWhile isSpace := by
      rwa [List.takeWhile_append_dropWhile]
    rcases List.mem_append.1 hmem with htake | hdrop
    · have hspace := List.mem_takeWhile_imp htake
      rw [hnot] at hspace
      cases hspace
    · exact hdrop
  have hall : ∀ x ∈ s.dropWhile isSpace, isSpace x = true := by
    have hempty : (s.dropWhile isSpace).rdropWhile isSpace = [] := hnil
    exact List.rdropWhile_eq_nil_iff.1 hempty
  have hspace := hall c hfront
  rw [hnot] at hspace
  cases hspace

/-- The first part of a text that begins with no blank is not empty. -/
theorem cutParts_head (hmax : 0 < maxChars) {c : CodePoint} {rest : Str} (hc : isSpace c = false)
    (hs : s = c :: rest) : ∃ part parts, part ≠ [] ∧ (cutParts maxChars (n + 1) s).1 = part :: parts := by
  rw [cutParts, if_neg (by rw [hs]; exact List.cons_ne_nil c rest)]
  split
  · exact ⟨s, [], by rw [hs]; exact List.cons_ne_nil c rest, rfl⟩
  · refine ⟨_, _, ?_, rfl⟩
    have hmem : c ∈ s.take (boundary maxChars s) := by
      obtain ⟨k, hk⟩ := Nat.exists_eq_succ_of_ne_zero (boundary_pos (s := s) hmax).ne'
      rw [hk, hs, List.take_succ_cons]
      exact List.mem_cons_self
    exact strip_ne_nil hmem hc

theorem shortenedNotice_ne_nil : shortenedNotice ≠ [] := by
  intro h
  have hlength := congrArg List.length h
  rw [shortenedNotice, text, List.length_map] at hlength
  simp at hlength

theorem withNotice_ne_nil {part : Str} {parts : List Str} :
    ∃ last ∈ withNotice maxChars (part :: parts), last ≠ [] := by
  obtain ⟨last, hlast⟩ : ∃ last, (part :: parts).getLast? = some last :=
    ⟨_, List.getLast?_eq_some_getLast (List.cons_ne_nil part parts)⟩
  refine ⟨rstrip (last.take (maxChars - shortenedNotice.length)) ++ shortenedNotice, ?_, ?_⟩
  · rw [withNotice, hlast]
    simp
  · intro hnil
    exact shortenedNotice_ne_nil (List.append_eq_nil_iff.1 hnil).2

/-- A text that is not blank has parts. -/
theorem splitDiscordMessage_ne_nil (hmax : 0 < maxChars) (hs : strip s ≠ []) :
    splitDiscordMessage maxChars maxParts s ≠ [] := by
  obtain ⟨c, rest, hshape⟩ := List.exists_cons_of_ne_nil hs
  have hc : isSpace c = false := head_strip s c (by rw [hshape]; rfl)
  obtain ⟨n, hn⟩ : ∃ n, max 1 maxParts = n + 1 := ⟨max 1 maxParts - 1, by omega⟩
  obtain ⟨part, parts, hpart, hcut⟩ :=
    @cutParts_head maxChars n _ hmax c rest hc hshape
  have hsome : ∃ kept ∈ if (cutParts maxChars (n + 1) (strip s)).2 ≠ [] then
      withNotice maxChars (cutParts maxChars (n + 1) (strip s)).1
      else (cutParts maxChars (n + 1) (strip s)).1, kept ≠ [] := by
    rw [hcut]
    split
    · exact withNotice_ne_nil
    · exact ⟨part, List.mem_cons_self, hpart⟩
  obtain ⟨kept, hmem, hkept⟩ := hsome
  refine List.ne_nil_of_mem (a := kept) ?_
  rw [splitDiscordMessage, hn]
  exact List.mem_filter.2 ⟨hmem, by simpa using hkept⟩

end Parts

end HardyAI.PrivateNotes
