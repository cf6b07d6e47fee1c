import HardyAI.Foundation.Text
import Mathlib.Tactic.Common

/-! 64-bit floats given by their bits: their order, and the float next to an integer. -/

namespace Foundation

/-- What the interpreter's own routines make of floats and of their text. -/
class PythonFloat where
  /-- `float(text)`, none where the text is no number. -/
  ofText : Str → Option (BitVec 64)
  /-- `abs(a - b) > 1e-6`. -/
  apart : BitVec 64 → BitVec 64 → Bool

/-- No text is a number here, and only a float itself is as near to it. -/
@[reducible] def plainFloats : PythonFloat where
  ofText _ := none
  apart a b := a ≠ b

section Order

def isNan (bits : BitVec 64) : Bool := 2047 * 2 ^ 52 < bits.toNat % 2 ^ 63

/-- The place of a number among the floats; the two zeros share theirs. -/
def floatRank (bits : BitVec 64) : Int :=
  if bits.msb then -((bits.toNat : Int) - 2 ^ 63) else bits.toNat

/-- `a < b`, which holds of no value that is not a number. -/
def floatLt (a b : BitVec 64) : Bool := !isNan a && !isNan b && floatRank a < floatRank b

end Order

section Integers

/-- `n / 2 ^ k`, rounded to the nearest integer, and to the even one of two that are as near. -/
def roundShift (n k : Nat) : Nat :=
  let q := n / 2 ^ k
  if 2 ^ k < 2 * (n % 2 ^ k) ∨ 2 * (n % 2 ^ k) = 2 ^ k ∧ q % 2 = 1 then q + 1 else q

/-- The bits of the float next to a positive integer. Those of infinity and more stand for an
overflow. -/
def roundedBits (n : Nat) : Nat :=
  let e := n.log2
  (e + 1023) * 2 ^ 52 + (roundShift (n * 2 ^ (52 - e)) (e - 52) - 2 ^ 52)

/-- `float(n)`, none where it is an `OverflowError`. -/
def floatOfInt (n : Int) : Option (BitVec 64) :=
  let bits := if n = 0 then 0 else roundedBits n.natAbs
  if bits < 2047 * 2 ^ 52 then
    some (BitVec.ofNat 64 (if n < 0 then bits + 2 ^ 63 else bits))
  else none

theorem roundShift_le {n k m : Nat} (h : n < m * 2 ^ k) : roundShift n k ≤ m := by
  have hq : n / 2 ^ k < m := Nat.div_lt_of_lt_mul (by rwa [Nat.mul_comm])
  unfold roundShift
  dsimp only
  split <;> omega

/-- Rounding reaches an odd power of two from the half step before it on. -/
theorem roundShift_lt_iff {n k m : Nat} (hm : m % 2 = 0) (hpos : 0 < m) (h : n < m * 2 ^ (k + 1)) :
    roundShift n (k + 1) < m ↔ n < m * 2 ^ (k + 1) - 2 ^ k := by
  have hsplit := Nat.div_add_mod n (2 ^ (k + 1))
  have hrest : n % 2 ^ (k + 1) < 2 ^ (k + 1) := Nat.mod_lt _ (Nat.two_pow_pos _)
  have hq : n / 2 ^ (k + 1) < m := Nat.div_lt_of_lt_mul (by rwa [Nat.mul_comm])
  have hpower : 2 ^ (k + 1) = 2 * 2 ^ k := by rw [Nat.pow_succ, Nat.mul_comm]
  unfold roundShift
  dsimp only
  generalize n / 2 ^ (k + 1) = q at *
  generalize n % 2 ^ (k + 1) = r at *
  rw [hpower] at *
  generalize 2 ^ k = p at *
  rcases Nat.lt_or_ge (q + 1) m with hlow | hhigh
  · have hle : (q + 1) * p + p ≤ m * p := by
      rw [← Nat.succ_mul]
      exact Nat.mul_le_mul_right p hlow
    have hbelow : n < m * (2 * p) - p := by
      rw [← Nat.mul_assoc, Nat.mul_comm m 2, Nat.mul_assoc]
      rw [Nat.add_mul] at hle
      have : 2 * p * q = 2 * (q * p) := by rw [Nat.mul_assoc, Nat.mul_comm p q]
      omega
    simp only [hbelow, iff_true]
    split <;> omega
  · obtain rfl : m = q + 1 := by omega
    have hodd : q % 2 = 1 := by omega
    have hexpand : (q + 1) * (2 * p) = 2 * p * q + 2 * p := by
      rw [Nat.add_mul, Nat.one_mul, Nat.mul_comm]
    rw [hexpand]
    simp only [hodd, and_true]
    split <;> omega

theorem roundedBits_lt_iff {n : Nat} (hn : n ≠ 0) :
    roundedBits n < 2047 * 2 ^ 52 ↔ n < 2 ^ 1024 - 2 ^ 970 := by
  have hexponents : n.log2 + 1 + (52 - n.log2) = 53 + (n.log2 - 52) := by omega
  have htop : 2 ^ 1024 = 2 ^ 53 * 2 ^ (970 + 1) := by rw [← Nat.pow_add]
  have hstep : 2 ^ 1024 = 2 * 2 ^ 1023 := by rw [← Nat.pow_succ']
  have hgap : 2 ^ 970 ≤ 2 ^ 1023 := Nat.pow_le_pow_right (by omega) (by omega)
  have hlow : 2 ^ n.log2 ≤ n := Nat.log2_self_le hn
  have hhigh : n < 2 ^ (n.log2 + 1) := Nat.lt_log2_self
  unfold roundedBits
  dsimp only
  rcases Nat.lt_trichotomy n.log2 1023 with he | he | he
  · have hbelow : 2 ^ (n.log2 + 1) ≤ 2 ^ 1023 := Nat.pow_le_pow_right (by omega) he
    have hshift : roundShift (n * 2 ^ (52 - n.log2)) (n.log2 - 52) ≤ 2 ^ 53 := by
      refine roundShift_le ?_
      calc n * 2 ^ (52 - n.log2) < 2 ^ (n.log2 + 1) * 2 ^ (52 - n.log2) :=
            Nat.mul_lt_mul_of_pos_right hhigh (Nat.two_pow_pos _)
        _ = 2 ^ 53 * 2 ^ (n.log2 - 52) := by
            rw [← Nat.pow_add, ← Nat.pow_add, hexponents]
    generalize roundShift (n * 2 ^ (52 - n.log2)) (n.log2 - 52) = m at *
    generalize 2 ^ 1023 = t at *
    generalize 2 ^ 970 = g at *
    omega
  · have hshift := roundShift_lt_iff (n := n) (k := 970) (m := 2 ^ 53) rfl (by omega)
      (by rw [he] at hhigh; exact htop ▸ hhigh)
    rw [he, Nat.sub_eq_zero_of_le (by omega : 52 ≤ 1023), Nat.pow_zero, Nat.mul_one, htop, ← hshift]
    generalize roundShift n (970 + 1) = m at *
    omega
  · have habove : 2 ^ 1024 ≤ 2 ^ n.log2 := Nat.pow_le_pow_right (by omega) he
    generalize roundShift (n * 2 ^ (52 - n.log2)) (n.log2 - 52) = m at *
    generalize 2 ^ 1024 = t at *
    omega

/-- An integer has a float next to it up to the half step behind the largest one. -/
theorem floatOfInt_isSome {n : Int} :
    (floatOfInt n).isSome = true ↔ n.natAbs < 2 ^ 1024 - 2 ^ 970 := by
  unfold floatOfInt
  dsimp only
  by_cases hn : n = 0
  · subst hn
    have hpos : 0 < 2 ^ 1024 - 2 ^ 970 :=
      Nat.sub_pos_of_lt (Nat.pow_lt_pow_right (by omega) (by omega))
    exact iff_of_true rfl hpos
  · rw [if_neg hn, ← roundedBits_lt_iff (Int.natAbs_ne_zero.2 hn)]
    split
    · next hbelow => exact iff_of_true rfl hbelow
    · next habove => exact iff_of_false Bool.false_ne_true habove

end Integers

end Foundation
