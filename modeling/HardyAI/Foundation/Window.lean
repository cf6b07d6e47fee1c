import Mathlib.Data.List.Basic
import Mathlib.Tactic.Common

/-! A window over a growing history: what no longer fits falls off in front, and what stays is
stored in a form that takes no more room. -/

namespace Foundation

variable {α : Type*}

/-- What can be kept: with a list that fits, each end of it fits, and so does the list with its
front part as it is stored. -/
structure Room (fits : List α → Prop) (stored : α → α) : Prop where
  nil : fits []
  left : ∀ xs ys, fits (xs ++ ys) → fits xs
  right : ∀ xs ys, fits (xs ++ ys) → fits ys
  storing : ∀ xs ys, fits (xs ++ ys) → fits (xs.map stored ++ ys)

variable (fits : List α → Prop) [DecidablePred fits] (stored : α → α)

/-- The longest end of a list that fits. -/
def window : List α → List α
  | [] => []
  | x :: xs => if fits (x :: xs) then x :: xs else window xs

/-- A window behind which some elements are added. -/
def slide (w new : List α) : List α := (window fits (w ++ new)).map stored

/-- A window that shows the stored end of a history, and no shorter one than would fit. -/
structure Shows (history w : List α) : Prop where
  suffix : w <:+ history.map stored
  covers : ∀ xs, xs <:+ history → fits xs → xs.length ≤ w.length

variable {fits stored} {history w new : List α}

theorem window_suffix (xs : List α) : window fits xs <:+ xs := by
  induction xs with
  | nil => exact List.suffix_rfl
  | cons x xs ih =>
    rw [window]
    split
    · exact List.suffix_rfl
    · exact ih.trans (List.suffix_cons x xs)

theorem fits_window (hnil : fits []) (xs : List α) : fits (window fits xs) := by
  induction xs with
  | nil => exact hnil
  | cons x xs ih =>
    rw [window]
    split
    · next hfits => exact hfits
    · exact ih

theorem length_le_window {xs ys : List α} (hsuffix : ys <:+ xs) (hfits : fits ys) :
    ys.length ≤ (window fits xs).length := by
  induction xs with
  | nil => exact hsuffix.length_le
  | cons x xs ih =>
    rw [window]
    split
    · exact hsuffix.length_le
    · next hnot =>
      rcases List.suffix_cons_iff.1 hsuffix with rfl | hsuffix
      · exact absurd hfits hnot
      · exact ih hsuffix

theorem window_of_fits {xs : List α} (hfits : fits xs) : window fits xs = xs := by
  cases xs with
  | nil => rfl
  | cons x xs => exact if_pos hfits

/-- What stands in front of an element for which there is no room does not count. -/
theorem window_append {ys : List α} {x : α} (hright : ∀ xs ys, fits (xs ++ ys) → fits ys)
    (hfull : ¬fits (x :: ys)) (hfits : fits ys) (xs : List α) :
    window fits (xs ++ x :: ys) = ys := by
  induction xs with
  | nil => rw [List.nil_append, window, if_neg hfull, window_of_fits hfits]
  | cons z xs ih =>
    have hover : ¬fits (z :: (xs ++ x :: ys)) := fun h => hfull (hright (z :: xs) _ h)
    rw [List.cons_append, window, if_neg hover, ih]

theorem fits_slide (room : Room fits stored) (w new : List α) : fits (slide fits stored w new) := by
  have hkept : fits (window fits (w ++ new) ++ []) := by
    rw [List.append_nil]
    exact fits_window room.nil _
  have hstored := room.storing _ _ hkept
  rwa [List.append_nil] at hstored

omit [DecidablePred fits] in
theorem Shows.start (hstored : history.map stored = history) :
    Shows fits stored history history where
  suffix := by simp only [hstored, List.suffix_rfl]
  covers _ hsuffix _ := hsuffix.length_le

/-- A window goes on showing a history that grows. -/
theorem Shows.slide (room : Room fits stored) (h : Shows fits stored history w)
    (hstored : w.map stored = w) (new : List α) :
    Shows fits stored (history ++ new) (Foundation.slide fits stored w new) where
  suffix := by
    have hkept : (window fits (w ++ new)).map stored <:+ (w ++ new).map stored :=
      (window_suffix (w ++ new)).map stored
    rw [List.map_append, hstored] at hkept
    rw [List.map_append]
    exact hkept.trans (List.suffix_append_self_iff.2 h.suffix)
  covers xs hsuffix hfits := by
    rw [Foundation.slide, List.length_map]
    by_cases hlength : xs.length ≤ new.length
    · -- what fits is no more than what is added
      have hnew : xs <:+ new :=
        List.suffix_of_suffix_length_le hsuffix (List.suffix_append _ _) hlength
      exact length_le_window (hnew.trans (List.suffix_append _ _)) hfits
    · -- what fits reaches back into the window, where it stands as it is stored
      obtain ⟨front, hfront⟩ : new <:+ xs :=
        List.suffix_of_suffix_length_le (List.suffix_append _ _) hsuffix (by omega)
      subst hfront
      have hbefore : front <:+ history := List.suffix_append_self_iff.1 hsuffix
      have hshown : front.length ≤ w.length := h.covers front hbefore (room.left _ _ hfits)
      have hinside : front.map stored <:+ w :=
        List.suffix_of_suffix_length_le (hbefore.map stored) h.suffix
          (by rwa [List.length_map])
      have hwhole := length_le_window (List.suffix_append_self_iff.2 hinside)
        (room.storing _ _ hfits)
      simpa using hwhole

end Foundation
