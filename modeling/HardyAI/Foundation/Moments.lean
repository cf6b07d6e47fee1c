import HardyAI.Foundation.IsoOrder
import HardyAI.Foundation.Blanks

/-! Moments read back from the texts of `datetime.isoformat`, fractions of a second included. -/

namespace Foundation

/-- What `datetime.fromisoformat` reads, a naive datetime as one of UTC: microseconds since the
start of the year 1, none where the text is no datetime. -/
class MomentText where
  moment : Str → Option Int
  moment_isoUtc (t : Instant) : moment (isoUtc t) = some (t.val : Int)

section Reading

def microAt (s : Str) : Nat := if (s.drop 19).head? = some 0x2E then numberAt s 20 6 else 0

/-- The moment of a text that `isoUtc` writes. -/
def readMoment (s : Str) : Option Int :=
  let micros := (dateAt s * 86400 + secondAt s) * 1000000 + microAt s
  if h : micros < maxMicros then if isoUtc ⟨micros, h⟩ = s then some micros else none else none

theorem microAt_isoUtc (t : Instant) : microAt (isoUtc t) = t.val % 1000000 := by
  have hbody := length_isoBody t
  have hdrop : (isoUtc t).drop 19 = isoFraction (t.val % 1000000) := by
    rw [isoUtc_body, List.drop_left' hbody]
  rw [microAt, hdrop, isoFraction]
  by_cases hmicro : t.val % 1000000 = 0
  · have hsign : (text "+00:00").head? ≠ some 0x2E := by decide
    rw [if_pos hmicro, List.nil_append, if_neg hsign, hmicro]
  · have hpoint : ((text "." ++ padded 6 (t.val % 1000000)) ++ text "+00:00").head? =
        some 0x2E := rfl
    have hread := @numberAt_append (isoBody t ++ text ".") (text "+00:00") 20 6
      (t.val % 1000000) (Nat.mod_lt _ (by omega)) (by rw [List.length_append, hbody]; rfl)
    rw [if_neg hmicro, if_pos hpoint, isoUtc_body, isoFraction, if_neg hmicro]
    simpa only [List.append_assoc] using hread

theorem readMoment_isoUtc (t : Instant) : readMoment (isoUtc t) = some (t.val : Int) := by
  have hlt := t.isLt
  have hmark : (text "T").length = 1 := rfl
  have hday : dateAt (isoUtc t) = t.val / 86400000000 := by
    rw [isoUtc_body, isoBody, List.append_assoc, List.append_assoc]
    refine dateAt_isoDate ?_ _
    unfold maxMicros at hlt
    omega
  have hsecond : secondAt (isoUtc t) = t.val / 1000000 % 86400 := by
    rw [isoUtc_body, isoBody]
    refine secondAt_isoTime ?_ (by omega) _
    rw [List.length_append, length_isoDate, hmark]
  have hmicros : (t.val / 86400000000 * 86400 + t.val / 1000000 % 86400) * 1000000 +
      t.val % 1000000 = t.val := by
    omega
  simp only [readMoment, hday, hsecond, microAt_isoUtc, hmicros, hlt, dite_true, if_true]

/-- The texts that `isoUtc` writes, and no others. -/
@[reducible] def plainMoments : MomentText where
  moment := readMoment
  moment_isoUtc := readMoment_isoUtc

end Reading

section Solid

/-- A text without blanks. -/
def Solid (s : Str) : Prop := ∀ c ∈ s, isSpace c = false

theorem solid_append {s t : Str} (hs : Solid s) (ht : Solid t) : Solid (s ++ t) := fun c hc =>
  (List.mem_append.1 hc).elim (hs c) (ht c)

theorem solid_padded (width n : Nat) : Solid (padded width n) := by
  induction width generalizing n with
  | zero => exact fun _ hc => absurd hc List.not_mem_nil
  | succ width ih =>
    refine solid_append (ih _) fun c hc => ?_
    obtain rfl := List.mem_singleton.1 hc
    simp only [isSpace]
    rw [Bool.eq_false_iff]
    simp
    omega

theorem solid_isoUtc (t : Instant) : Solid (isoUtc t) := by
  have hmarks : Solid (text "-T:.+00:00") := fun c hc => by
    have hall : (text "-T:.+00:00").all (fun c => !isSpace c) = true := by decide +kernel
    simpa using List.all_eq_true.1 hall c hc
  have hmark {s : Str} (hs : s ⊆ text "-T:.+00:00") : Solid s := fun c hc => hmarks c (hs hc)
  have hdash : Solid (text "-") := hmark (by decide)
  have ht : Solid (text "T") := hmark (by decide)
  have hcolon : Solid (text ":") := hmark (by decide)
  have hdot : Solid (text ".") := hmark (by decide)
  have hzone : Solid (text "+00:00") := hmark (by decide)
  have hfraction : Solid (isoFraction (t.val % 1000000)) := by
    unfold isoFraction
    split
    · exact hzone
    · exact solid_append (solid_append hdot (solid_padded _ _)) hzone
  rw [isoUtc_parts]
  exact solid_append (solid_padded _ _) (solid_append hdash (solid_append (solid_padded _ _)
    (solid_append hdash (solid_append (solid_padded _ _) (solid_append ht (solid_append
      (solid_padded _ _) (solid_append hcolon (solid_append (solid_padded _ _) (solid_append hcolon
        (solid_append (solid_padded _ _) hfraction))))))))))

theorem strip_isoUtc (t : Instant) : strip (isoUtc t) = isoUtc t := strip_of_forall (solid_isoUtc t)

theorem isoUtc_ne_nil (t : Instant) : isoUtc t ≠ [] := by
  intro hnil
  have hlength := length_isoBody t
  have hempty : isoBody t = [] := by
    rw [isoUtc_body] at hnil
    exact (List.append_eq_nil_iff.1 hnil).1
  rw [hempty] at hlength
  cases hlength

end Solid

end Foundation
