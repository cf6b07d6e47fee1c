import Mathlib.Algebra.Order.Ring.Int
import Mathlib.Algebra.BigOperators.Group.List.Basic
import Mathlib.Algebra.Order.Group.Nat

/-! Threads at program points, and a weight summed over all of them. A thread
that moves changes the total by the difference of its weights. -/

namespace Foundation.Threads

variable {Phase : Type*}

def total (weight : Phase → Nat) (threads : List Phase) : Nat := (threads.map weight).sum

variable {weight : Phase → Nat}

@[simp] theorem total_nil : total weight [] = 0 := rfl

@[simp] theorem total_cons (a : Phase) (threads : List Phase) :
    total weight (a :: threads) = weight a + total weight threads := by
  simp [total]

theorem total_concat (threads : List Phase) (a : Phase) :
    total weight (threads ++ [a]) = total weight threads + weight a := by
  simp [total]

theorem total_set (weight : Phase → Nat) {threads : List Phase} {i : Nat} {old : Phase} (h : threads[i]? = some old)
    (new : Phase) : total weight (threads.set i new) + weight old =
      total weight threads + weight new := by
  induction threads generalizing i with
  | nil => simp at h
  | cons a threads ih =>
    cases i with
    | zero =>
      obtain rfl : a = old := by simpa using h
      rw [List.set_cons_zero, total_cons, total_cons]
      omega
    | succ i =>
      have htail := ih (by simpa using h)
      rw [List.set_cons_succ, total_cons, total_cons]
      omega

theorem le_total (weight : Phase → Nat) {threads : List Phase} {i : Nat} {a : Phase} (h : threads[i]? = some a) :
    weight a ≤ total weight threads := by
  induction threads generalizing i with
  | nil => simp at h
  | cons b threads ih =>
    rw [total_cons]
    cases i with
    | zero =>
      obtain rfl : b = a := by simpa using h
      omega
    | succ i =>
      have htail := ih (by simpa using h)
      omega

theorem total_le_total {weight' : Phase → Nat} {threads : List Phase}
    (h : ∀ a ∈ threads, weight a ≤ weight' a) : total weight threads ≤ total weight' threads := by
  induction threads with
  | nil => exact le_rfl
  | cons a threads ih =>
    have hfirst := h a List.mem_cons_self
    have hrest := ih fun b hb => h b (List.mem_cons_of_mem a hb)
    rw [total_cons, total_cons]
    omega

theorem total_eq_zero {threads : List Phase} (h : ∀ a ∈ threads, weight a = 0) :
    total weight threads = 0 := by
  refine List.sum_eq_zero fun n hn => ?_
  obtain ⟨a, ha, rfl⟩ := List.mem_map.1 hn
  exact h a ha

end Foundation.Threads
