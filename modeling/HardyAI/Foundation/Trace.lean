import Mathlib.Data.List.Induction
import Mathlib.Order.Basic

/-! Runs of a deterministic machine over a list of inputs. A property of the
last state of a run is traced back to the last input that gave rise to it. -/

namespace Foundation.Trace

variable {σ α β : Type*} {step : σ → α → σ} {Inv : σ → Prop}

/-- The state after the inputs `as`, taken in order from `s`. -/
def run (step : σ → α → σ) (s : σ) (as : List α) : σ := as.foldl step s

@[simp] theorem run_nil (s : σ) : run step s [] = s := rfl

@[simp] theorem run_cons (s : σ) (a : α) (as : List α) :
    run step s (a :: as) = run step (step s a) as := rfl

@[simp] theorem run_append (s : σ) (as bs : List α) :
    run step s (as ++ bs) = run step (run step s as) bs :=
  List.foldl_append ..

theorem run_concat (s : σ) (as : List α) (a : α) :
    run step s (as ++ [a]) = step (run step s as) a := by
  rw [run_append, run_cons, run_nil]

theorem run_invariant (hstep : ∀ s a, Inv s → Inv (step s a)) {s : σ} (hs : Inv s)
    (as : List α) : Inv (run step s as) := by
  induction as generalizing s with
  | nil => exact hs
  | cons a as ih => exact ih (hstep s a hs)

/-- An invariant that only the inputs satisfying `Ok` keep. -/
theorem run_invariant_of_forall {Ok : σ → α → Prop}
    (hstep : ∀ s a, Ok s a → Inv s → Inv (step s a)) {s : σ} (hs : Inv s) (as : List α)
    (hok : ∀ pre a post, as = pre ++ a :: post → Ok (run step s pre) a) :
    Inv (run step s as) := by
  induction as generalizing s with
  | nil => exact hs
  | cons a as ih =>
    refine ih (hstep s a (hok [] a as rfl) hs) fun pre b post hsplit => ?_
    have hb := hok (a :: pre) b post (by rw [hsplit, List.cons_append])
    rwa [run_cons] at hb

/-- Every input satisfies `Ok` in the state in which it is taken. -/
def Along (step : σ → α → σ) (Ok : σ → α → Prop) : σ → List α → Prop
  | _, [] => True
  | s, a :: as => Ok s a ∧ Along step Ok (step s a) as

theorem Along.split {Ok : σ → α → Prop} {s : σ} {as : List α} (h : Along step Ok s as) :
    ∀ pre a post, as = pre ++ a :: post → Ok (run step s pre) a := by
  intro pre
  induction pre generalizing s as with
  | nil =>
    rintro a post rfl
    exact h.1
  | cons first pre ih =>
    rintro a post rfl
    rw [run_cons]
    exact ih h.2 a post rfl

/-- An invariant that exactly the inputs satisfying `Ok` keep, where `Base` always holds: it
holds all along a run if and only if each input of the run was such. -/
theorem run_invariant_iff {Base : σ → Prop} {Ok : σ → α → Prop}
    (hbase : ∀ s a, Base s → Base (step s a))
    (hstep : ∀ s a, Base s → Inv s → (Inv (step s a) ↔ Ok s a)) {s : σ} (hb : Base s) (hs : Inv s)
    (as : List α) :
    (∀ pre post, as = pre ++ post → Inv (run step s pre)) ↔
      ∀ pre a post, as = pre ++ a :: post → Ok (run step s pre) a := by
  have hbases : ∀ pre, Base (run step s pre) := run_invariant hbase hb
  constructor
  · intro hinv pre a post hsplit
    have hafter := hinv (pre ++ [a]) post (by rw [hsplit, List.append_assoc]; rfl)
    rw [run_concat] at hafter
    exact (hstep _ a (hbases pre) (hinv pre (a :: post) hsplit)).1 hafter
  · intro hok pre post hsplit
    have hboth : Base (run step s pre) ∧ Inv (run step s pre) := by
      refine @run_invariant_of_forall _ _ _ (fun s => Base s ∧ Inv s) Ok ?_ _ ⟨hb, hs⟩ pre ?_
      · intro s a ha hinv
        exact ⟨hbase s a hinv.1, (hstep s a hinv.1 hinv.2).2 ha⟩
      · intro front a rest hfront
        exact hok front a (rest ++ post) (by rw [hsplit, hfront, List.append_assoc]; rfl)
    exact hboth.2

theorem run_monotone [Preorder β] (Inv : σ → Prop) {measure : σ → β}
    (hinv : ∀ s a, Inv s → Inv (step s a))
    (hstep : ∀ s a, Inv s → measure s ≤ measure (step s a)) {s : σ} (hs : Inv s)
    (as : List α) : measure s ≤ measure (run step s as) := by
  induction as generalizing s with
  | nil => exact le_rfl
  | cons a as ih => exact (hstep s a hs).trans (ih (hinv s a hs))

/-- Where `P` can only come from `P` itself or from a birth, a run that ends in
`P` splits at its last birth, and `P` has held in every state since. -/
theorem run_origin (Inv P : σ → Prop) (Born : σ → α → Prop)
    (hinv : ∀ s a, Inv s → Inv (step s a))
    (hstep : ∀ s a, Inv s → P (step s a) → P s ∨ Born s a) {s : σ} (hs : Inv s)
    (hnot : ¬ P s) (as : List α) (h : P (run step s as)) :
    ∃ pre a post, as = pre ++ a :: post ∧ Born (run step s pre) a ∧
      (∀ mid b rest, post = mid ++ b :: rest → ¬ Born (run step s (pre ++ a :: mid)) b) ∧
      ∀ mid rest, post = mid ++ rest → P (run step s (pre ++ a :: mid)) := by
  induction as using List.reverseRecOn with
  | nil => exact absurd h hnot
  | append_singleton as a ih =>
    have hreach : Inv (run step s as) := run_invariant hinv hs as
    by_cases hborn : Born (run step s as) a
    · refine ⟨as, a, [], rfl, hborn, ?_, ?_⟩
      · intro mid b rest hsplit
        simp at hsplit
      · intro mid rest hsplit
        obtain ⟨rfl, rfl⟩ : mid = [] ∧ rest = [] := by simpa using hsplit.symm
        exact h
    · have hprev : P (run step s as) := by
        rw [run_concat] at h
        exact (hstep _ a hreach h).resolve_right hborn
      obtain ⟨pre, b, post, rfl, hb, hlast, hsince⟩ := ih hprev
      refine ⟨pre, b, post ++ [a], by simp, hb, ?_, ?_⟩
      · intro mid c rest hsplit
        rcases List.eq_nil_or_concat rest with rfl | ⟨rest, d, rfl⟩
        · obtain ⟨rfl, hc⟩ := List.append_inj' hsplit rfl
          obtain rfl : a = c := by simpa using hc
          exact hborn
        · refine hlast mid c rest ?_
          rw [List.concat_eq_append, ← List.cons_append, ← List.append_assoc] at hsplit
          exact (List.append_inj' hsplit rfl).1
      · intro mid rest hsplit
        rcases List.eq_nil_or_concat rest with rfl | ⟨rest, d, rfl⟩
        · rw [List.append_nil] at hsplit
          rw [← hsplit]
          simpa using h
        · refine hsince mid rest ?_
          rw [List.concat_eq_append, ← List.append_assoc] at hsplit
          exact (List.append_inj' hsplit rfl).1

section Splits

variable {x e : α} {log a b : List α}

/-- Where an extended log is split, the new entry is the one split at or the last after it. -/
theorem concat_eq_append_cons (h : log ++ [x] = a ++ e :: b) :
    (b = [] ∧ e = x ∧ a = log) ∨ ∃ b', b = b' ++ [x] ∧ log = a ++ e :: b' := by
  rcases List.eq_nil_or_concat b with rfl | ⟨b', y, rfl⟩
  · obtain ⟨hlog, hx⟩ := List.append_inj' h rfl
    exact .inl ⟨rfl, (List.cons.inj hx).1.symm, hlog.symm⟩
  · rw [List.concat_eq_append, ← List.cons_append, ← List.append_assoc] at h
    obtain ⟨hlog, hx⟩ := List.append_inj' h rfl
    exact .inr ⟨b', by rw [List.concat_eq_append, (List.cons.inj hx).1], hlog⟩

/-- A list with an element of `P` splits at the last one. -/
theorem exists_last {P : α → Prop} (h : ∃ d ∈ log, P d) :
    ∃ a d b, log = a ++ d :: b ∧ P d ∧ ∀ c ∈ b, ¬ P c := by
  induction log using List.reverseRecOn with
  | nil => simp at h
  | append_singleton log y ih =>
    by_cases hy : P y
    · exact ⟨log, y, [], rfl, hy, by simp⟩
    · obtain ⟨d, hd, hPd⟩ := h
      have hmem : d ∈ log := by
        rcases List.mem_append.1 hd with hd | hd
        · exact hd
        · exact absurd (List.mem_singleton.1 hd ▸ hPd) hy
      obtain ⟨a, d', b, rfl, hd', hlast⟩ := ih ⟨d, hmem, hPd⟩
      refine ⟨a, d', b ++ [y], by simp, hd', fun c hc => ?_⟩
      rcases List.mem_append.1 hc with hc | hc
      · exact hlast c hc
      · exact List.mem_singleton.1 hc ▸ hy

/-- What follows an entry of a part of the log follows it in the log. -/
theorem exists_split_of_sublist {xs ys : List α} (h : List.Sublist (xs ++ e :: ys) log) :
    ∃ a b, log = a ++ e :: b ∧ List.Sublist ys b := by
  obtain ⟨front, rest, rfl, -, hrest⟩ := List.append_sublist_iff.1 h
  obtain ⟨mid, b, rfl, he, hys⟩ := List.cons_sublist_iff.1 hrest
  obtain ⟨a, c, rfl⟩ := List.append_of_mem he
  exact ⟨front ++ a, c ++ b, by simp, hys.trans (List.sublist_append_right c b)⟩

/-- The entry that ends a part of the log has the rest of that part before it. -/
theorem exists_split_of_concat_sublist {xs : List α} (h : List.Sublist (xs ++ [e]) log) :
    ∃ a b, log = a ++ e :: b ∧ List.Sublist xs a := by
  obtain ⟨front, rest, rfl, hfront, hrest⟩ := List.append_sublist_iff.1 h
  obtain ⟨mid, b, rfl⟩ := List.append_of_mem (List.singleton_sublist.1 hrest)
  exact ⟨front ++ mid, b, by simp, hfront.trans (List.sublist_append_left front mid)⟩

end Splits

end Foundation.Trace
