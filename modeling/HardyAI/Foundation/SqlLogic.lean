import HardyAI.Foundation.Text

/-! The conditions of a `WHERE` clause, where a comparison with `NULL` is neither true nor false. -/

namespace Foundation.Sql

/-- `none` stands for `NULL`. -/
abbrev Truth := Option Bool

def conj : Truth → Truth → Truth
  | some false, _ | _, some false => some false
  | some true, some true => some true
  | none, some true | some true, none | none, none => none

def disj : Truth → Truth → Truth
  | some true, _ | _, some true => some true
  | some false, some false => some false
  | none, some false | some false, none | none, none => none

/-- A comparison of a column that may be `NULL`. -/
def compare {α : Type*} (x : Option α) (p : α → Bool) : Truth := x.map p

def isNull {α : Type*} (x : Option α) : Truth := some x.isNone

def isNotNull {α : Type*} (x : Option α) : Truth := some x.isSome

/-- `WHERE` keeps the rows whose condition is true. -/
def holds (t : Truth) : Bool := t = some true

variable {α : Type*} {p q : Truth}

@[simp] theorem holds_conj : holds (conj p q) = (holds p && holds q) := by
  rcases p with _ | _ | _ <;> rcases q with _ | _ | _ <;> rfl

@[simp] theorem holds_disj : holds (disj p q) = (holds p || holds q) := by
  rcases p with _ | _ | _ <;> rcases q with _ | _ | _ <;> rfl

@[simp] theorem holds_compare (x : Option α) (f : α → Bool) : holds (compare x f) = x.any f := by
  cases x with
  | none => rfl
  | some a => cases h : f a <;> simp [compare, holds, h]

@[simp] theorem holds_isNull (x : Option α) : holds (isNull x) = x.isNone := by
  cases x <;> rfl

@[simp] theorem holds_isNotNull (x : Option α) : holds (isNotNull x) = x.isSome := by
  cases x <;> rfl

/-- A disjunction of any number of conditions. -/
theorem holds_foldr_disj (ts : List Truth) : holds (ts.foldr disj (some false)) = ts.any holds := by
  induction ts with
  | nil => rfl
  | cons t ts ih => rw [List.foldr_cons, holds_disj, ih, List.any_cons]

theorem holds_foldr_conj (ts : List Truth) : holds (ts.foldr conj (some true)) = ts.all holds := by
  induction ts with
  | nil => rfl
  | cons t ts ih => rw [List.foldr_cons, holds_conj, ih, List.all_cons]

end Foundation.Sql
