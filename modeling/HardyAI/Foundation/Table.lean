import Mathlib.Data.List.Nodup
import Mathlib.Tactic.Common

/-! Tables with a primary key. No two rows of a table share a key, and no
operation on tables can build one where they do. -/

namespace Foundation

structure Table {Row Key : Type*} (key : Row → Key) where
  rows : List Row
  unique : (rows.map key).Nodup

namespace Table

variable {Row Key : Type*} {key : Row → Key}

def empty : Table key := ⟨[], List.nodup_nil⟩

instance : EmptyCollection (Table key) := ⟨empty⟩

theorem key_injective (t : Table key) {r r' : Row} (hr : r ∈ t.rows) (hr' : r' ∈ t.rows)
    (h : key r = key r') : r = r' :=
  List.inj_on_of_nodup_map t.unique hr hr' h

@[ext] theorem ext {t t' : Table key} (h : t.rows = t'.rows) : t = t' := by
  cases t; cases t'; simpa using h

section Lookup

variable [DecidableEq Key]

/-- `SELECT * … WHERE key = ?`. -/
def find? (t : Table key) (k : Key) : Option Row := t.rows.find? fun r => key r = k

theorem find?_eq_some {t : Table key} {k : Key} {r : Row} :
    t.find? k = some r ↔ r ∈ t.rows ∧ key r = k := by
  constructor
  · intro h
    exact ⟨List.mem_of_find?_eq_some h, by simpa using List.find?_some h⟩
  · rintro ⟨hr, rfl⟩
    obtain ⟨r', hr'⟩ : ∃ r', t.rows.find? (fun x => key x = key r) = some r' := by
      rw [← Option.isSome_iff_exists, List.find?_isSome]
      exact ⟨r, hr, by simp⟩
    have hkey : key r' = key r := by simpa using List.find?_some hr'
    rw [find?, hr', t.key_injective (List.mem_of_find?_eq_some hr') hr hkey]

theorem find?_eq_none {t : Table key} {k : Key} :
    t.find? k = none ↔ ∀ r ∈ t.rows, key r ≠ k := by
  simp [find?, List.find?_eq_none]

theorem key_of_find? {t : Table key} {k : Key} {r : Row} (h : t.find? k = some r) :
    key r = k := (find?_eq_some.1 h).2

theorem mem_of_find? {t : Table key} {k : Key} {r : Row} (h : t.find? k = some r) :
    r ∈ t.rows := (find?_eq_some.1 h).1

theorem find?_of_mem {t : Table key} {r : Row} (h : r ∈ t.rows) : t.find? (key r) = some r :=
  find?_eq_some.2 ⟨h, rfl⟩

@[simp] theorem find?_empty (k : Key) : (∅ : Table key).find? k = none := rfl

end Lookup

section Update

/-- The `SET` clause of an update. -/
structure Assignment (key : Row → Key) where
  apply : Row → Row
  keeps (r : Row) : key (apply r) = key r := by intros; rfl

/-- `UPDATE … SET f WHERE g`. -/
def update (t : Table key) (g : Row → Bool) (f : Assignment key) : Table key where
  rows := t.rows.map fun r => if g r then f.apply r else r
  unique := by
    have hmap : (t.rows.map fun r => if g r then f.apply r else r).map key = t.rows.map key := by
      rw [List.map_map]
      refine List.map_congr_left fun r _ => ?_
      by_cases hg : g r <;> simp [hg, f.keeps]
    rw [hmap]
    exact t.unique

/-- The `rowcount` of an update. -/
def count (t : Table key) (g : Row → Bool) : Nat := t.rows.countP g

variable {g : Row → Bool} {f : Assignment key}

theorem mem_update {t : Table key} {r : Row} :
    r ∈ (t.update g f).rows ↔ ∃ old ∈ t.rows, r = if g old then f.apply old else old := by
  simp only [update, List.mem_map, eq_comm]

/-- A column that an update leaves alone keeps all its values. -/
theorem map_update_of_eq {β : Type*} {column : Row → β} (t : Table key)
    (h : ∀ r, column (f.apply r) = column r) :
    (t.update g f).rows.map column = t.rows.map column := by
  simp only [update, List.map_map]
  refine List.map_congr_left fun r _ => ?_
  by_cases hg : g r <;> simp [hg, h]

theorem update_eq_self {t : Table key} (h : ∀ r ∈ t.rows, g r = false) : t.update g f = t := by
  ext1
  rw [update]
  conv_rhs => rw [← List.map_id t.rows]
  exact List.map_congr_left fun r hr => by simp [h r hr]

/-- Two updates with one `SET` clause, the second of which sees no row of the first. -/
theorem update_update (t : Table key) {g' : Row → Bool}
    (h : ∀ r, g r = true → g' (f.apply r) = false) :
    (t.update g f).update g' f = t.update (fun r => g r || g' r) f := by
  ext1
  simp only [update, List.map_map]
  refine List.map_congr_left fun r _ => ?_
  by_cases hg : g r = true
  · simp [hg, h r hg]
  · simp [hg]

theorem count_eq_zero {t : Table key} : t.count g = 0 ↔ ∀ r ∈ t.rows, g r = false := by
  simp [count, List.countP_eq_zero]

variable [DecidableEq Key]

theorem find?_update (t : Table key) (k : Key) :
    (t.update g f).find? k = (t.find? k).map fun r => if g r then f.apply r else r := by
  have hcomp : ((fun r => decide (key r = k)) ∘ fun r => if g r then f.apply r else r) =
      fun r => decide (key r = k) := by
    funext r
    by_cases hg : g r <;> simp [hg, f.keeps]
  rw [find?, update, List.find?_map, hcomp, find?]

/-- An update that names a key touches at most the row of that key. -/
theorem count_key {t : Table key} {k : Key} (g : Row → Bool) :
    t.count (fun r => key r = k && g r) = 1 ↔ ∃ r, t.find? k = some r ∧ g r = true := by
  constructor
  · intro h
    obtain ⟨r, hr, hg⟩ : ∃ r ∈ t.rows, (decide (key r = k) && g r) = true := by
      rw [← List.countP_pos_iff]
      exact (show 0 < t.count _ by omega)
    rw [Bool.and_eq_true, decide_eq_true_eq] at hg
    exact ⟨r, find?_eq_some.2 ⟨hr, hg.1⟩, hg.2⟩
  · rintro ⟨r, hr, hg⟩
    obtain ⟨hmem, hk⟩ := find?_eq_some.1 hr
    obtain ⟨front, back, hsplit⟩ := List.append_of_mem hmem
    have hothers : ∀ r' ∈ front ++ back, ¬ (decide (key r' = k) && g r') = true := by
      intro r' hr' hcontra
      rw [Bool.and_eq_true, decide_eq_true_eq, ← hk] at hcontra
      have hnodup := t.unique
      rw [hsplit, List.map_append, List.map_cons, List.nodup_middle, List.nodup_cons,
        ← List.map_append] at hnodup
      exact hnodup.1 (hcontra.1 ▸ List.mem_map_of_mem hr')
    rw [count, hsplit, List.countP_append, List.countP_cons_of_pos (by simp [hk, hg]),
      ← Nat.add_assoc, ← List.countP_append, List.countP_eq_zero.2 hothers]

/-- An update of the row of one key, with whether its `rowcount` is 1. -/
def updateKey (t : Table key) (k : Key) (g : Row → Bool) (f : Assignment key) :
    Bool × Table key :=
  (t.count (fun r => key r = k && g r) = 1, t.update (fun r => key r = k && g r) f)

theorem updateKey_fst {t : Table key} {k : Key} :
    (t.updateKey k g f).1 = true ↔ ∃ r, t.find? k = some r ∧ g r = true := by
  simp only [updateKey, decide_eq_true_eq]
  exact count_key g

theorem find?_updateKey (t : Table key) (k k' : Key) :
    (t.updateKey k g f).2.find? k' =
      (t.find? k').map fun r => if k' = k ∧ g r = true then f.apply r else r := by
  rw [updateKey, find?_update]
  refine Option.map_congr fun r hr => ?_
  simp only [key_of_find? hr, Bool.and_eq_true, decide_eq_true_eq]

theorem updateKey_snd_of_false {t : Table key} {k : Key} (h : (t.updateKey k g f).1 = false) :
    (t.updateKey k g f).2 = t := by
  refine update_eq_self fun r hr => ?_
  by_contra hg
  rw [Bool.not_eq_false, Bool.and_eq_true, decide_eq_true_eq] at hg
  rw [updateKey_fst.2 ⟨r, find?_eq_some.2 ⟨hr, hg.1⟩, hg.2⟩] at h
  exact Bool.noConfusion h

end Update

section Insert

variable [DecidableEq Key]

/-- `INSERT`, which fails where the key is taken. -/
def insert? (t : Table key) (r : Row) : Option (Table key) :=
  if h : key r ∈ t.rows.map key then none
  else some
    { rows := t.rows ++ [r]
      unique := by
        rw [List.map_append, List.map_cons, List.map_nil]
        exact (List.nodup_append_comm.1 (List.nodup_cons.2 ⟨h, t.unique⟩)) }

/-- `INSERT` into a table with further unique columns: `clash` holds of the rows that share
one of them. -/
def insertApart? (t : Table key) (clash : Row → Bool) (r : Row) : Option (Table key) :=
  if t.rows.any clash then none else t.insert? r

theorem insertApart?_eq_some {t t' : Table key} {clash : Row → Bool} {r : Row} :
    t.insertApart? clash r = some t' ↔ (∀ old ∈ t.rows, clash old = false) ∧
      t.insert? r = some t' := by
  unfold insertApart?
  split
  · next hclash =>
    simp only [reduceCtorEq, false_iff, not_and]
    intro hall
    obtain ⟨old, hold, hc⟩ := List.any_eq_true.1 hclash
    simp [hall old hold] at hc
  · next hapart => simpa using fun _ => hapart

theorem insert?_eq_some {t t' : Table key} {r : Row} (h : t.insert? r = some t') :
    t.find? (key r) = none ∧ t'.rows = t.rows ++ [r] := by
  unfold insert? at h
  split at h
  · simp at h
  · next hfresh =>
    obtain rfl := Option.some.inj h
    refine ⟨find?_eq_none.2 fun r' hr' heq => hfresh ?_, rfl⟩
    exact heq ▸ List.mem_map_of_mem hr'

theorem mem_insert? {t t' : Table key} {r x : Row} (h : t.insert? r = some t') :
    x ∈ t'.rows ↔ x ∈ t.rows ∨ x = r := by
  rw [(insert?_eq_some h).2, List.mem_append, List.mem_singleton]

theorem insert?_eq_some_iff {t t' : Table key} {r : Row} :
    t.insert? r = some t' ↔ (∀ old ∈ t.rows, key old ≠ key r) ∧ t'.rows = t.rows ++ [r] := by
  constructor
  · intro h
    obtain ⟨hfresh, hrows⟩ := insert?_eq_some h
    exact ⟨find?_eq_none.1 hfresh, hrows⟩
  · rintro ⟨hfresh, hrows⟩
    have hnew : key r ∉ t.rows.map key := by
      intro hmem
      obtain ⟨old, hold, hkey⟩ := List.mem_map.1 hmem
      exact hfresh old hold hkey
    rw [insert?, dif_neg hnew, Option.some.injEq]
    exact ext hrows.symm

theorem insert?_eq_none {t : Table key} {r : Row} :
    t.insert? r = none ↔ ∃ old, t.find? (key r) = some old := by
  unfold insert?
  split
  · next htaken =>
    obtain ⟨old, hold, heq⟩ := List.mem_map.1 htaken
    simpa using ⟨old, find?_eq_some.2 ⟨hold, heq⟩⟩
  · next hfresh =>
    simp only [reduceCtorEq, false_iff, not_exists]
    intro old hold
    exact hfresh ((key_of_find? hold) ▸ List.mem_map_of_mem (mem_of_find? hold))

theorem insertApart?_ne_none {t : Table key} {clash : Row → Bool} {r : Row}
    (hkey : t.find? (key r) = none) (hapart : ∀ old ∈ t.rows, clash old = false) :
    t.insertApart? clash r ≠ none := by
  have hnot : ¬t.rows.any clash = true := by
    simpa using hapart
  rw [insertApart?, if_neg hnot]
  intro hinsert
  obtain ⟨old, hold⟩ := insert?_eq_none.1 hinsert
  rw [hkey] at hold
  cases hold

theorem find?_insert? {t t' : Table key} {r : Row} (h : t.insert? r = some t') (k : Key) :
    t'.find? k = if key r = k then some r else t.find? k := by
  obtain ⟨hfresh, hrows⟩ := insert?_eq_some h
  rw [find?, hrows, List.find?_append]
  by_cases hk : key r = k
  · subst hk
    have hnone : t.rows.find? (fun r' => decide (key r' = key r)) = none := hfresh
    simp [hnone]
  · simp [hk, find?]

/-- `INSERT`, or the new row in the place of the one that has its key. -/
def upsert (t : Table key) (r : Row) : Table key :=
  match t.insert? r with
  | some t' => t'
  | none =>
    { rows := t.rows.map fun old => if key old = key r then r else old
      unique := by
        have hkeys : (t.rows.map fun old => if key old = key r then r else old).map key =
            t.rows.map key := by
          rw [List.map_map]
          refine List.map_congr_left fun old _ => ?_
          by_cases hold : key old = key r <;> simp [hold]
        rw [hkeys]
        exact t.unique }

theorem find?_upsert (t : Table key) (r : Row) (k : Key) :
    (t.upsert r).find? k = if k = key r then some r else t.find? k := by
  cases hinsert : t.insert? r with
  | some t' =>
    simp only [upsert, hinsert, find?_insert? hinsert, eq_comm]
  | none =>
    obtain ⟨old, hold⟩ := insert?_eq_none.1 hinsert
    have hcomp : ((fun row => decide (key row = k)) ∘ fun row => if key row = key r then r else row) =
        fun row => decide (key row = k) := by
      funext row
      by_cases hrow : key row = key r <;> simp [hrow]
    simp only [upsert, hinsert, find?, List.find?_map, hcomp]
    change (t.find? k).map _ = _
    by_cases hk : k = key r
    · subst hk
      simp [hold, key_of_find? hold]
    · rw [if_neg hk]
      change _ = t.find? k
      cases hfind : t.find? k with
      | none => rfl
      | some other => simp [key_of_find? hfind, hk]

/-- `INSERT … ON CONFLICT(key) DO UPDATE SET f`. -/
def insertOrUpdate (t : Table key) (r : Row) (f : Assignment key) : Table key :=
  match t.insert? r with
  | some t' => t'
  | none => t.update (fun old => key old = key r) f

theorem find?_insertOrUpdate (t : Table key) (r : Row) (f : Assignment key) (k : Key) :
    (t.insertOrUpdate r f).find? k =
      if k = key r then some ((t.find? k).elim r f.apply) else t.find? k := by
  cases hinsert : t.insert? r with
  | some t' =>
    simp only [insertOrUpdate, hinsert, find?_insert? hinsert]
    by_cases hk : k = key r
    · subst hk
      simp [(insert?_eq_some hinsert).1]
    · simp [hk, Ne.symm hk]
  | none =>
    obtain ⟨old, hold⟩ := insert?_eq_none.1 hinsert
    simp only [insertOrUpdate, hinsert, find?_update]
    by_cases hk : k = key r
    · subst hk
      simp [hold, key_of_find? hold]
    · rw [if_neg hk]
      cases hfind : t.find? k with
      | none => rfl
      | some other => simp [key_of_find? hfind, hk]

end Insert

/-- `DELETE … WHERE g`. -/
def delete (t : Table key) (g : Row → Bool) : Table key where
  rows := t.rows.filter fun r => !g r
  unique := t.unique.sublist (List.filter_sublist.map key)

theorem find?_delete_key [DecidableEq Key] (t : Table key) (k k' : Key) :
    (t.delete fun r => decide (key r = k)).find? k' = if k' = k then none else t.find? k' := by
  rw [find?, delete, List.find?_filter]
  by_cases hk : k' = k
  · subst hk
    simp
  · rw [if_neg hk, find?]
    congr 1
    funext r
    by_cases hr : key r = k' <;> simp [hr, hk]

theorem find?_delete [DecidableEq Key] (t : Table key) (g : Row → Bool) (k : Key) :
    (t.delete g).find? k = (t.find? k).filter fun r => !g r := by
  cases hfind : t.find? k with
  | none =>
    rw [find?_eq_none] at hfind
    simp only [Option.filter_none, find?_eq_none, delete, List.mem_filter]
    exact fun r hr => hfind r hr.1
  | some r =>
    obtain ⟨hr, hkey⟩ := find?_eq_some.1 hfind
    by_cases hg : g r = true
    · simp only [Option.filter_some, hg, Bool.not_true, Bool.false_eq_true, if_false,
        find?_eq_none, delete, List.mem_filter]
      intro r' hr' hkey'
      rw [t.key_injective hr'.1 hr (hkey'.trans hkey.symm)] at hr'
      simp [hg] at hr'
    · simp only [Option.filter_some, hg, Bool.not_false, if_true, find?_eq_some, delete,
        List.mem_filter]
      simp [hr, hkey]

end Table

end Foundation
