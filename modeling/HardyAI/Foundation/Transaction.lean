import HardyAI.Foundation.Text
import Mathlib.Tactic.Common

/-! A database transaction commits a new state or rolls back with an error. A
statement refuses the parameters that SQLite cannot store. -/

universe u

namespace Foundation

/-- The exceptions that a call can end with. -/
inductive PyError
  | valueError (message : String)
  | keyError (message : String)
  | permissionError (message : String)
  | runtimeError (message : String)
  | lookupError (message : String)
  | typeError
  | attributeError
  | overflowError
  | unicodeEncodeError
  | integrityError
  /-- `sqlite3.OperationalError`. -/
  | operationalError
  /-- `TaskConflictError`, a `ValueError` of its own. -/
  | taskConflictError (message : String)
  /-- `ToolContractError`, a `ValueError` of its own. -/
  | toolContractError (code : String)
  /-- `GmailHistoryExpiredError`, a `RuntimeError` of its own. -/
  | gmailHistoryExpired
  deriving DecidableEq, Repr

/-- `type(exc).__name__`. -/
def PyError.className : PyError → String
  | .valueError _ => "ValueError"
  | .keyError _ => "KeyError"
  | .permissionError _ => "PermissionError"
  | .runtimeError _ => "RuntimeError"
  | .lookupError _ => "LookupError"
  | .typeError => "TypeError"
  | .attributeError => "AttributeError"
  | .overflowError => "OverflowError"
  | .unicodeEncodeError => "UnicodeEncodeError"
  | .integrityError => "IntegrityError"
  | .operationalError => "OperationalError"
  | .taskConflictError _ => "TaskConflictError"
  | .toolContractError _ => "ToolContractError"
  | .gmailHistoryExpired => "GmailHistoryExpiredError"

/-- `isinstance(exc, ValueError)`. -/
def PyError.isValueError : PyError → Bool
  | .valueError _ | .unicodeEncodeError | .taskConflictError _ | .toolContractError _ => true
  | .keyError _ | .permissionError _ | .runtimeError _ | .lookupError _ | .typeError
  | .attributeError | .overflowError | .integrityError | .operationalError
  | .gmailHistoryExpired => false

/-- `str(exc)`, empty where the text is the interpreter's own. -/
def PyError.message : PyError → String
  | .valueError m | .keyError m | .permissionError m | .runtimeError m | .lookupError m
  | .taskConflictError m | .toolContractError m => m
  | .typeError | .attributeError | .overflowError | .unicodeEncodeError | .integrityError
  | .operationalError | .gmailHistoryExpired => ""

abbrev Transaction (σ α : Type*) := σ → Except PyError (α × σ)

variable {σ α : Type*}

/-- The state a transaction leaves: the new one when it commits, the old one
when it rolls back. -/
def Transaction.commit (t : Transaction σ α) (s : σ) : σ :=
  match t s with
  | .ok (_, s') => s'
  | .error _ => s

/-- What the caller of a transaction sees. -/
def Transaction.reply (t : Transaction σ α) (s : σ) : Except PyError α :=
  (t s).map Prod.fst

/-- The same transaction with another form of its result. -/
def Transaction.mapReply {β : Type*} (t : Transaction σ α) (f : α → β) : Transaction σ β :=
  fun s => (t s).map fun p => (f p.1, p.2)

@[simp] theorem Transaction.commit_mapReply {β : Type*} (t : Transaction σ α) (f : α → β)
    (s : σ) : (t.mapReply f).commit s = t.commit s := by
  cases h : t s <;> simp [Transaction.mapReply, Transaction.commit, h, Except.map]

@[simp] theorem Transaction.reply_mapReply {β : Type*} (t : Transaction σ α) (f : α → β)
    (s : σ) : (t.mapReply f).reply s = (t.reply s).map f := by
  cases h : t s <;> simp [Transaction.mapReply, Transaction.reply, h, Except.map]

theorem Transaction.commit_of_ok {t : Transaction σ α} {s s' : σ} {a : α}
    (h : t s = .ok (a, s')) : t.commit s = s' := by
  simp only [Transaction.commit, h]

theorem Transaction.commit_of_error {t : Transaction σ α} {s : σ} {e : PyError}
    (h : t s = .error e) : t.commit s = s := by
  simp only [Transaction.commit, h]

/-- What holds of the old state and of every committed one holds after the transaction. -/
theorem Transaction.commit_of_forall {t : Transaction σ α} {s : σ} {P : σ → Prop} (hs : P s)
    (h : ∀ a s', t s = .ok (a, s') → P s') : P (t.commit s) := by
  rcases ht : t s with e | ⟨a, s'⟩
  · rwa [commit_of_error ht]
  · rw [commit_of_ok ht]
    exact h a s' ht

theorem Transaction.reply_eq_ok {t : Transaction σ α} {s : σ} {a : α} :
    t.reply s = .ok a ↔ t s = .ok (a, t.commit s) := by
  unfold Transaction.reply Transaction.commit
  rcases t s with e | ⟨b, s'⟩ <;> simp [Except.map]

theorem Transaction.reply_mapReply_eq_ok {β : Type*} {t : Transaction σ α} {f : α → β} {s : σ}
    {b : β} : (t.mapReply f).reply s = .ok b ↔ ∃ a, t s = .ok (a, t.commit s) ∧ f a = b := by
  rcases h : t s with e | ⟨a, s'⟩ <;>
    simp [Transaction.mapReply, Transaction.reply, Transaction.commit, h, Except.map]

theorem bind_eq_ok {β γ : Type u} {x : Except PyError β} {f : β → Except PyError γ} {c : γ} :
    x >>= f = .ok c ↔ ∃ b, x = .ok b ∧ f b = .ok c := by
  cases x with
  | error e => simp [bind, Except.bind]
  | ok b => simp [bind, Except.bind]

theorem bind_eq_error {β γ : Type u} {x : Except PyError β} {f : β → Except PyError γ}
    {e : PyError} : x >>= f = .error e ↔ x = .error e ∨ ∃ b, x = .ok b ∧ f b = .error e := by
  cases x with
  | error e' => simp [bind, Except.bind]
  | ok b => simp [bind, Except.bind]

theorem ok_of_any {β : Type u} {x : Except PyError β} {p : β → Bool}
    (h : x.toOption.any p = true) : ∃ a, x = .ok a ∧ p a = true := by
  cases x with
  | error e => cases h
  | ok a => exact ⟨a, rfl, h⟩

theorem map_eq_ok {β γ : Type u} {x : Except PyError β} {f : β → γ} {c : γ} :
    x.map f = .ok c ↔ ∃ b, x = .ok b ∧ f b = c := by
  cases x with
  | error e => simp [Except.map]
  | ok b => simp [Except.map]

theorem mapM_length {β γ : Type u} {f : β → Except PyError γ} {xs : List β} {ys : List γ}
    (h : xs.mapM f = .ok ys) : ys.length = xs.length := by
  induction xs generalizing ys with
  | nil =>
    have hys : [] = ys := by simpa [List.mapM_nil, Pure.pure, Except.pure] using h
    simp [← hys]
  | cons x xs ih =>
    simp only [List.mapM_cons, bind_eq_ok, Pure.pure, Except.pure, Except.ok.injEq] at h
    obtain ⟨y, -, zs, hzs, rfl⟩ := h
    simp [ih hzs]

theorem mapM_map_eq_ok {β γ : Type u} {f : γ → Except PyError β} {g : β → γ} {xs : List β}
    (h : ∀ x ∈ xs, f (g x) = .ok x) : (xs.map g).mapM f = .ok xs := by
  induction xs with
  | nil => rfl
  | cons x xs ih =>
    have hrest := ih fun y hy => h y (List.mem_cons_of_mem _ hy)
    simp only [List.map_cons, List.mapM_cons, h x List.mem_cons_self, hrest]
    rfl

inductive Parameter
  | null
  | text (s : Str)
  | int (n : Int)
  deriving DecidableEq

def Parameter.ofText? : Option Str → Parameter
  | none => .null
  | some s => .text s

def Parameter.ofInt? : Option Int → Parameter
  | none => .null
  | some n => .int n

def Parameter.error? : Parameter → Option PyError
  | .null => none
  | .text s => if encodable s then none else some .unicodeEncodeError
  | .int n => if -2 ^ 63 ≤ n ∧ n < 2 ^ 63 then none else some .overflowError

/-- Binds the parameters of a statement: the first that SQLite cannot store is
reported. -/
def bindParameters (ps : List Parameter) : Except PyError Unit :=
  match ps.findSome? Parameter.error? with
  | some e => .error e
  | none => .ok ()

theorem error?_text {s : Str} (h : encodable s = true) : (Parameter.text s).error? = none := by
  rw [Parameter.error?, if_pos h]

theorem bindParameters_ok {ps : List Parameter} (h : ∀ p ∈ ps, p.error? = none) :
    bindParameters ps = .ok () := by
  unfold bindParameters
  rw [List.findSome?_eq_none_iff.2 h]

theorem bindParameters_encodable {ps : List Parameter} (h : bindParameters ps = .ok ()) {s : Str}
    (hs : .text s ∈ ps) : encodable s = true := by
  unfold bindParameters at h
  split at h
  · cases h
  · next hnone =>
    have herror := List.findSome?_eq_none_iff.1 hnone _ hs
    by_contra hnot
    simp [Parameter.error?, hnot] at herror

/-- An assertion of the source. -/
def require (holds : Bool) (e : PyError) : Except PyError Unit :=
  if holds then .ok () else .error e

@[simp] theorem require_eq_ok {holds : Bool} {e : PyError} {u : Unit} :
    require holds e = .ok u ↔ holds = true := by
  unfold require
  split <;> simp_all

section Raises

variable {β γ : Type u} {P : PyError → Prop} {x : Except PyError β}

/-- Every exception of the computation satisfies `P`. -/
structure Raises (P : PyError → Prop) (x : Except PyError β) : Prop where
  holds : ∀ e, x = .error e → P e

theorem raises_ok {b : β} : Raises P (.ok b) := ⟨nofun⟩

theorem raises_error {e : PyError} (h : P e) : Raises P (.error e : Except PyError β) := by
  constructor
  rintro _ ⟨⟩
  exact h

theorem Raises.bind {f : β → Except PyError γ} (hx : Raises P x)
    (hf : ∀ b, x = .ok b → Raises P (f b)) : Raises P (x >>= f) := by
  cases x with
  | error e => exact raises_error (hx.holds e rfl)
  | ok b => exact hf b rfl

theorem Raises.map {f : β → γ} (hx : Raises P x) : Raises P (x.map f) := by
  cases x with
  | error e => exact raises_error (hx.holds e rfl)
  | ok b => exact raises_ok

theorem raises_require {holds : Bool} {e : PyError} (h : P e) : Raises P (require holds e) := by
  unfold require
  split
  · exact raises_ok
  · exact raises_error h

end Raises

end Foundation
