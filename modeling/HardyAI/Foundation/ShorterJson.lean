import HardyAI.Foundation.JsonText
import HardyAI.Foundation.Sha256
import Mathlib.Data.List.Flatten

/-! Values whose text is a part of the text of another value. -/

namespace Foundation

/-- A part of a text that UTF-8 encodes is encoded in no more bytes. -/
theorem utf8_of_sublist {s t : Str} (h : s.Sublist t) {bytes : List Nat}
    (ht : utf8 t = .ok bytes) : ∃ fewer, utf8 s = .ok fewer ∧ fewer.length ≤ bytes.length := by
  unfold utf8 at ht
  split at ht
  · next hencodable =>
    cases ht
    have hpart : encodable s = true := by
      rw [encodable, List.all_eq_true] at hencodable ⊢
      exact fun c hc => hencodable c (h.subset hc)
    exact ⟨s.flatMap utf8Char, by rw [utf8, if_pos hpart], (h.flatMap utf8Char).length_le⟩
  · cases ht

theorem join_sublist {separator : Str} {parts parts' : List Str}
    (h : List.Forall₂ (fun part part' => List.Sublist part' part) parts parts') :
    (join separator parts').Sublist (join separator parts) := by
  have hrest : ∀ {rest rest' : List Str},
      List.Forall₂ (fun part part' => List.Sublist part' part) rest rest' →
      (rest'.flatMap (separator ++ ·)).Sublist (rest.flatMap (separator ++ ·)) := by
    intro rest rest' h
    induction h with
    | nil => exact List.Sublist.refl _
    | cons hpart _ ih =>
      rw [List.flatMap_cons, List.flatMap_cons]
      exact ((List.Sublist.refl separator).append hpart).append ih
  cases h with
  | nil => exact List.Sublist.refl _
  | cons hpart h =>
    rw [Json.join_cons, Json.join_cons]
    exact hpart.append (hrest h)

section Sorting

variable {α β : Type*} {S : α × β → α × β → Prop} {r : α → α → Prop} [DecidableRel r]

theorem forall₂_orderedInsert (hkeys : ∀ p q, S p q → q.1 = p.1) {p q : α × β} (h : S p q)
    {ps qs : List (α × β)} (hs : List.Forall₂ S ps qs) :
    List.Forall₂ S (ps.orderedInsert (fun a b => r a.1 b.1) p)
      (qs.orderedInsert (fun a b => r a.1 b.1) q) := by
  induction hs with
  | nil => exact .cons h .nil
  | @cons a b ps qs hab hrest ih =>
    rw [List.orderedInsert_cons, List.orderedInsert_cons, hkeys p q h, hkeys a b hab]
    split
    · exact .cons h (.cons hab hrest)
    · exact .cons hab ih

/-- Pairs that agree on their keys are sorted in the same way. -/
theorem forall₂_insertionSort (hkeys : ∀ p q, S p q → q.1 = p.1) {ps qs : List (α × β)}
    (hs : List.Forall₂ S ps qs) :
    List.Forall₂ S (ps.insertionSort fun a b => r a.1 b.1)
      (qs.insertionSort fun a b => r a.1 b.1) := by
  induction hs with
  | nil => exact .nil
  | cons hab hrest ih => exact forall₂_orderedInsert hkeys hab ih

end Sorting

namespace Json

variable [PythonText]

/-- The text of `y` is a part of the text of `x`. -/
structure Shorter (x y : Json) : Prop where
  text : (render false y).Sublist (render false x)
  ints : y.hasLongInt = true → x.hasLongInt = true

abbrev ShorterFields : List (Str × Json) → List (Str × Json) → Prop :=
  List.Forall₂ fun p q => q.1 = p.1 ∧ Shorter p.2 q.2

theorem Shorter.refl (x : Json) : Shorter x x := ⟨List.Sublist.refl _, id⟩

theorem shorter_empty (items : List Json) : Shorter (.arr items) (.arr []) where
  text := by
    rw [render, render]
    exact ((List.Sublist.refl _).append (List.nil_sublist _)).append (List.Sublist.refl _)
  ints := nofun

theorem hasLongIntFields_of_shorter {fs gs : List (Str × Json)} (h : ShorterFields fs gs)
    (hlong : hasLongIntFields gs = true) : hasLongIntFields fs = true := by
  induction h with
  | nil => cases hlong
  | @cons p q fs gs hpq _ ih =>
    rw [hasLongIntFields, Bool.or_eq_true] at hlong ⊢
    exact hlong.imp hpq.2.ints ih

theorem shorter_obj {fs gs : List (Str × Json)} (h : ShorterFields fs gs) :
    Shorter (.obj fs) (.obj gs) where
  ints := hasLongIntFields_of_shorter h
  text := by
    have hrendered : List.Forall₂ (fun p q : Str × Str => q.1 = p.1 ∧ q.2.Sublist p.2)
        (renderFields false fs) (renderFields false gs) := by
      rw [renderFields_eq_map, renderFields_eq_map, List.forall₂_map_left_iff,
        List.forall₂_map_right_iff]
      exact h.imp fun p q hpq => ⟨hpq.1, hpq.2.text⟩
    have hsorted := forall₂_insertionSort (r := (· ≤ ·)) (fun _ _ hpq => hpq.1) hrendered
    rw [render, render]
    refine ((List.Sublist.refl _).append (join_sublist ?_)).append (List.Sublist.refl _)
    rw [List.forall₂_map_left_iff, List.forall₂_map_right_iff]
    refine hsorted.imp fun p q hpq => ?_
    rw [hpq.1]
    exact (List.Sublist.refl _).append hpq.2

theorem dump_of_shorter {x y : Json} (h : Shorter x y) {s : Str} (hs : dump false x = .ok s) :
    ∃ t, dump false y = .ok t ∧ t.Sublist s := by
  unfold dump at hs ⊢
  split at hs
  · cases hs
  · next hshort =>
    cases hs
    rw [if_neg fun hlong => hshort (h.ints hlong)]
    exact ⟨_, rfl, h.text⟩

end Json

end Foundation
