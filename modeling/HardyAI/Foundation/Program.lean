import HardyAI.Foundation.Transaction

/-! Programs that act on a shared state by one request at a time. What a program may ask
for is judged by the requests it has made before and the replies it has seen. -/

namespace Foundation

/-- A program over the requests `Op`, which ends with a value or an exception. -/
inductive Program (Op : Type) (Reply : Op → Type) (α : Type)
  | pure (a : α)
  | raise (e : PyError)
  | request (op : Op) (next : Reply op → Program Op Reply α)

/-- The requests that a program has made, oldest first, each with its reply. -/
abbrev History {Op : Type} (Reply : Op → Type) := List (Sigma Reply)

namespace Program

variable {Op : Type} {Reply : Op → Type} {α β : Type}

section Combinators

def bind : Program Op Reply α → (α → Program Op Reply β) → Program Op Reply β
  | .pure a, f => f a
  | .raise e, _ => .raise e
  | .request op next, f => .request op fun r => (next r).bind f

/-- `try … except`, where the handler raises again what it does not catch. -/
def handle : Program Op Reply α → (PyError → Program Op Reply α) → Program Op Reply α
  | .pure a, _ => .pure a
  | .raise e, f => f e
  | .request op next, f => .request op fun r => (next r).handle f

instance : Monad (Program Op Reply) where
  pure := .pure
  bind := .bind

def perform (op : Op) : Program Op Reply (Reply op) := .request op .pure

def ofExcept : Except PyError α → Program Op Reply α
  | .ok a => .pure a
  | .error e => .raise e

/-- A request whose reply may be an exception. -/
def raising (p : Program Op Reply (Except PyError α)) : Program Op Reply α := p.bind ofExcept

end Combinators

section Conforms

/-- Every request of the program is allowed by what came before it, and it ends as `post`
says. -/
def Conforms (ok : History Reply → Op → Prop) (post : History Reply → Except PyError α → Prop) :
    History Reply → Program Op Reply α → Prop
  | h, .pure a => post h (.ok a)
  | h, .raise e => post h (.error e)
  | h, .request op next => ok h op ∧ ∀ r, Conforms ok post (h ++ [⟨op, r⟩]) (next r)

variable {ok : History Reply → Op → Prop} {h : History Reply}
  {post post' : History Reply → Except PyError α → Prop}

@[simp] theorem conforms_pure {a : α} :
    Conforms ok post h (.pure a : Program Op Reply α) ↔ post h (.ok a) := Iff.rfl

@[simp] theorem conforms_raise {e : PyError} :
    Conforms ok post h (.raise e : Program Op Reply α) ↔ post h (.error e) := Iff.rfl

@[simp] theorem conforms_request {op : Op} {next : Reply op → Program Op Reply α} :
    Conforms ok post h (.request op next) ↔
      ok h op ∧ ∀ r, Conforms ok post (h ++ [⟨op, r⟩]) (next r) := Iff.rfl

theorem Conforms.mono {p : Program Op Reply α} (hp : Conforms ok post h p)
    (hpost : ∀ h' x, h <+: h' → post h' x → post' h' x) : Conforms ok post' h p := by
  induction p generalizing h with
  | pure a => exact hpost h _ (List.prefix_refl h) hp
  | raise e => exact hpost h _ (List.prefix_refl h) hp
  | request op next ih =>
    refine ⟨hp.1, fun r => ih r (hp.2 r) fun h' x hpre => ?_⟩
    exact hpost h' x ((List.prefix_append h _).trans hpre)

theorem conforms_bind {p : Program Op Reply α} {f : α → Program Op Reply β}
    {post : History Reply → Except PyError β → Prop} :
    Conforms ok post h (p.bind f) ↔
      Conforms ok (fun h' x => match x with
        | .ok a => Conforms ok post h' (f a)
        | .error e => post h' (.error e)) h p := by
  induction p generalizing h with
  | pure a => rfl
  | raise e => rfl
  | request op next ih => exact and_congr Iff.rfl (forall_congr' fun r => ih r)

theorem conforms_handle {p : Program Op Reply α} {f : PyError → Program Op Reply α} :
    Conforms ok post h (p.handle f) ↔
      Conforms ok (fun h' x => match x with
        | .ok a => post h' (.ok a)
        | .error e => Conforms ok post h' (f e)) h p := by
  induction p generalizing h with
  | pure a => rfl
  | raise e => rfl
  | request op next ih => exact and_congr Iff.rfl (forall_congr' fun r => ih r)

@[simp] theorem conforms_perform {op : Op} {post : History Reply → Except PyError (Reply op) → Prop} :
    Conforms ok post h (perform op) ↔ ok h op ∧ ∀ r, post (h ++ [⟨op, r⟩]) (.ok r) := Iff.rfl

@[simp] theorem conforms_ofExcept {x : Except PyError α} :
    Conforms ok post h (ofExcept x : Program Op Reply α) ↔ post h x := by
  cases x <;> rfl

theorem conforms_raising {p : Program Op Reply (Except PyError α)} :
    Conforms ok post h (raising p) ↔
      Conforms ok (fun h' x => match x with
        | .ok y => post h' y
        | .error e => post h' (.error e)) h p := by
  rw [raising, conforms_bind]
  constructor
  · refine fun hp => hp.mono fun h' x _ hx => ?_
    cases x with
    | ok y => simpa using hx
    | error e => exact hx
  · refine fun hp => hp.mono fun h' x _ hx => ?_
    cases x with
    | ok y => simpa using hx
    | error e => exact hx

/-- The rule of sequencing: the second program starts from what the first one has done. -/
theorem Conforms.bind {p : Program Op Reply α} {f : α → Program Op Reply β}
    {post' : History Reply → Except PyError β → Prop} (hp : Conforms ok post h p)
    (hok : ∀ h' a, h <+: h' → post h' (.ok a) → Conforms ok post' h' (f a))
    (herror : ∀ h' e, h <+: h' → post h' (.error e) → post' h' (.error e)) :
    Conforms ok post' h (p.bind f) := by
  refine conforms_bind.2 (hp.mono fun h' x hpre hx => ?_)
  cases x with
  | ok a => exact hok h' a hpre hx
  | error e => exact herror h' e hpre hx

theorem Conforms.handle {p : Program Op Reply α} {f : PyError → Program Op Reply α}
    (hp : Conforms ok post h p) (hok : ∀ h' a, h <+: h' → post h' (.ok a) → post' h' (.ok a))
    (herror : ∀ h' e, h <+: h' → post h' (.error e) → Conforms ok post' h' (f e)) :
    Conforms ok post' h (p.handle f) := by
  refine conforms_handle.2 (hp.mono fun h' x hpre hx => ?_)
  cases x with
  | ok a => exact hok h' a hpre hx
  | error e => exact herror h' e hpre hx

end Conforms

section Safe

/-- Every request of the program is allowed, however it ends. -/
def Safe (ok : History Reply → Op → Prop) (h : History Reply) (p : Program Op Reply α) : Prop :=
  Conforms ok (fun _ _ => True) h p

variable {ok : History Reply → Op → Prop} {h : History Reply}

theorem Conforms.safe {post : History Reply → Except PyError α → Prop} {p : Program Op Reply α}
    (hp : Conforms ok post h p) : Safe ok h p := hp.mono fun _ _ _ _ => trivial

theorem safe_pure {a : α} : Safe ok h (.pure a : Program Op Reply α) := trivial

theorem safe_raise {e : PyError} : Safe ok h (.raise e : Program Op Reply α) := trivial

theorem safe_ofExcept {x : Except PyError α} : Safe ok h (ofExcept x : Program Op Reply α) :=
  conforms_ofExcept.2 trivial

theorem safe_perform {op : Op} (hop : ok h op) : Safe ok h (perform op : Program Op Reply _) :=
  ⟨hop, fun _ => trivial⟩

theorem Safe.bind {p : Program Op Reply α} {f : α → Program Op Reply β} (hp : Safe ok h p)
    (hf : ∀ h' a, h <+: h' → Safe ok h' (f a)) : Safe ok h (p.bind f) :=
  Conforms.bind hp (fun h' a hpre _ => hf h' a hpre) fun _ _ _ _ => trivial

theorem Safe.handle {p : Program Op Reply α} {f : PyError → Program Op Reply α}
    (hp : Safe ok h p) (hf : ∀ h' e, h <+: h' → Safe ok h' (f e)) : Safe ok h (p.handle f) :=
  Conforms.handle hp (fun _ _ _ _ => trivial) fun h' e hpre _ => hf h' e hpre

theorem Safe.raising {p : Program Op Reply (Except PyError α)} (hp : Safe ok h p) :
    Safe ok h (raising p) :=
  Safe.bind hp fun _ _ _ => safe_ofExcept

theorem Safe.ite {c : Prop} [Decidable c] {p q : Program Op Reply α} (hp : Safe ok h p)
    (hq : Safe ok h q) : Safe ok h (if c then p else q) := by
  by_cases hc : c
  · rwa [if_pos hc]
  · rwa [if_neg hc]

end Safe

section Runs

/-- The program can make these requests, see these replies and end so. -/
def Runs : Program Op Reply α → History Reply → Except PyError α → Prop
  | .pure a, h, x => h = [] ∧ x = .ok a
  | .raise e, h, x => h = [] ∧ x = .error e
  | .request op next, h, x => ∃ r rest, h = ⟨op, r⟩ :: rest ∧ Runs (next r) rest x

variable {h : History Reply} {op : Op}

@[simp] theorem runs_pure {a : α} {x : Except PyError α} :
    Runs (.pure a : Program Op Reply α) h x ↔ h = [] ∧ x = .ok a := Iff.rfl

@[simp] theorem runs_raise {e : PyError} {x : Except PyError α} :
    Runs (.raise e : Program Op Reply α) h x ↔ h = [] ∧ x = .error e := Iff.rfl

@[simp] theorem runs_perform {x : Except PyError (Reply op)} :
    Runs (perform op) h x ↔ ∃ r, h = [⟨op, r⟩] ∧ x = .ok r := by
  constructor
  · rintro ⟨r, rest, rfl, rfl, rfl⟩
    exact ⟨r, rfl, rfl⟩
  · rintro ⟨r, rfl, rfl⟩
    exact ⟨r, [], rfl, rfl, rfl⟩

@[simp] theorem runs_ofExcept {x y : Except PyError α} :
    Runs (ofExcept y : Program Op Reply α) h x ↔ h = [] ∧ x = y := by
  cases y <;> rfl

theorem runs_bind {p : Program Op Reply α} {f : α → Program Op Reply β} {x : Except PyError β} :
    Runs (p.bind f) h x ↔
      (∃ a h₁ h₂, h = h₁ ++ h₂ ∧ Runs p h₁ (.ok a) ∧ Runs (f a) h₂ x) ∨
      ∃ e, Runs p h (.error e) ∧ x = .error e := by
  induction p generalizing h with
  | pure a =>
    constructor
    · intro hrun
      exact .inl ⟨a, [], h, rfl, ⟨rfl, rfl⟩, hrun⟩
    · rintro (⟨a', h₁, h₂, rfl, ⟨rfl, ha⟩, hrun⟩ | ⟨e, ⟨-, he⟩, -⟩)
      · cases ha
        exact hrun
      · cases he
  | raise e =>
    constructor
    · rintro ⟨rfl, rfl⟩
      exact .inr ⟨e, ⟨rfl, rfl⟩, rfl⟩
    · rintro (⟨a', h₁, h₂, rfl, ⟨-, ha⟩, -⟩ | ⟨e', ⟨rfl, he⟩, rfl⟩)
      · cases ha
      · cases he
        exact ⟨rfl, rfl⟩
  | request op next ih =>
    constructor
    · rintro ⟨r, rest, rfl, hrun⟩
      rcases (ih r).1 hrun with ⟨a, h₁, h₂, rfl, hfirst, hsecond⟩ | ⟨e, hfirst, rfl⟩
      · exact .inl ⟨a, ⟨op, r⟩ :: h₁, h₂, rfl, ⟨r, h₁, rfl, hfirst⟩, hsecond⟩
      · exact .inr ⟨e, ⟨r, rest, rfl, hfirst⟩, rfl⟩
    · rintro (⟨a, h₁, h₂, rfl, ⟨r, rest, rfl, hfirst⟩, hsecond⟩ | ⟨e, ⟨r, rest, rfl, hfirst⟩, rfl⟩)
      · exact ⟨r, rest ++ h₂, rfl, (ih r).2 (.inl ⟨a, rest, h₂, rfl, hfirst, hsecond⟩)⟩
      · exact ⟨r, rest, rfl, (ih r).2 (.inr ⟨e, hfirst, rfl⟩)⟩

/-- A sequence that ends with a value ran both of its parts to the end. -/
theorem runs_bind_ok {p : Program Op Reply α} {f : α → Program Op Reply β} {b : β} :
    Runs (p.bind f) h (.ok b) ↔
      ∃ a h₁ h₂, h = h₁ ++ h₂ ∧ Runs p h₁ (.ok a) ∧ Runs (f a) h₂ (.ok b) := by
  rw [runs_bind]
  constructor
  · rintro (hrun | ⟨e, -, he⟩)
    · exact hrun
    · cases he
  · exact .inl

theorem runs_handle {p : Program Op Reply α} {f : PyError → Program Op Reply α}
    {x : Except PyError α} (hrun : Runs (p.handle f) h x) :
    (∃ a, Runs p h (.ok a) ∧ x = .ok a) ∨
      ∃ e h₁ h₂, h = h₁ ++ h₂ ∧ Runs p h₁ (.error e) ∧ Runs (f e) h₂ x := by
  induction p generalizing h with
  | pure a =>
    obtain ⟨rfl, rfl⟩ := hrun
    exact .inl ⟨a, ⟨rfl, rfl⟩, rfl⟩
  | raise e => exact .inr ⟨e, [], h, rfl, ⟨rfl, rfl⟩, hrun⟩
  | request op next ih =>
    obtain ⟨r, rest, rfl, hrest⟩ := hrun
    rcases ih r hrest with ⟨a, hfirst, rfl⟩ | ⟨e, h₁, h₂, rfl, hfirst, hsecond⟩
    · exact .inl ⟨a, ⟨r, rest, rfl, hfirst⟩, rfl⟩
    · exact .inr ⟨e, ⟨op, r⟩ :: h₁, h₂, rfl, ⟨r, h₁, rfl, hfirst⟩, hsecond⟩

/-- A request whose reply is a value or an exception. -/
theorem runs_raising {p : Program Op Reply (Except PyError α)} {x : Except PyError α} :
    Runs (raising p) h x ↔ Runs p h (.ok x) ∨ ∃ e, Runs p h (.error e) ∧ x = .error e := by
  rw [raising, runs_bind]
  constructor
  · rintro (⟨y, h₁, h₂, rfl, hfirst, hsecond⟩ | herror)
    · obtain ⟨rfl, rfl⟩ := runs_ofExcept.1 hsecond
      exact .inl (by simpa using hfirst)
    · exact .inr herror
  · rintro (hfirst | herror)
    · exact .inl ⟨x, h, [], by simp, hfirst, runs_ofExcept.2 ⟨rfl, rfl⟩⟩
    · exact .inr herror

/-- The history and the end of a program to which every request gets the reply of a table. -/
def answered (reply : ∀ op, Reply op) :
    Program Op Reply α → History Reply × Except PyError α
  | .pure a => ([], .ok a)
  | .raise e => ([], .error e)
  | .request op next =>
    let (h, x) := answered reply (next (reply op))
    (⟨op, reply op⟩ :: h, x)

theorem runs_answered (reply : ∀ op, Reply op) (p : Program Op Reply α) :
    Runs p (answered reply p).1 (answered reply p).2 := by
  induction p with
  | pure a => exact ⟨rfl, rfl⟩
  | raise e => exact ⟨rfl, rfl⟩
  | request op next ih => exact ⟨reply op, _, rfl, ih (reply op)⟩

theorem Safe.mono {ok ok' : History Reply → Op → Prop} {h₀ : History Reply}
    {p : Program Op Reply α} (hsafe : Safe ok h₀ p) (hok : ∀ h op, ok h op → ok' h op) :
    Safe ok' h₀ p := by
  induction p generalizing h₀ with
  | pure a => trivial
  | raise e => trivial
  | request op next ih => exact ⟨hok _ _ hsafe.1, fun r => ih r (hsafe.2 r)⟩

/-- A safe program has made allowed requests only. -/
theorem Safe.allowed {ok : History Reply → Op → Prop} {p : Program Op Reply α}
    {h₀ : History Reply} {x : Except PyError α} (hsafe : Safe ok h₀ p) (hrun : Runs p h x) :
    ∀ a op r b, h = a ++ ⟨op, r⟩ :: b → ok (h₀ ++ a) op := by
  induction p generalizing h h₀ with
  | pure v =>
    intro a op r b hsplit
    rw [hrun.1] at hsplit
    exact absurd hsplit (by simp)
  | raise e =>
    intro a op r b hsplit
    rw [hrun.1] at hsplit
    exact absurd hsplit (by simp)
  | request op next ih =>
    obtain ⟨r, rest, rfl, hrest⟩ := hrun
    intro a op' r' b hsplit
    cases a with
    | nil =>
      obtain ⟨hhead, -⟩ := List.cons.inj hsplit
      cases hhead
      simpa using hsafe.1
    | cons first a =>
      obtain ⟨rfl, hrest'⟩ := List.cons.inj hsplit
      have hok := ih r (hsafe.2 r) hrest a op' r' b hrest'
      simpa using hok

end Runs

section Ends

variable {σ : Type} {serve : σ → (op : Op) → Reply op → σ → Prop} {s s' : σ}
  {h : History Reply}

/-- The requests of the history are served one after another, from the state `s` to `s'`. -/
def Served (serve : σ → (op : Op) → Reply op → σ → Prop) : σ → History Reply → σ → Prop
  | s, [], s' => s' = s
  | s, ⟨op, r⟩ :: h, s' => ∃ m, serve s op r m ∧ Served serve m h s'

theorem served_append {h₁ h₂ : History Reply} :
    Served serve s (h₁ ++ h₂) s' ↔ ∃ m, Served serve s h₁ m ∧ Served serve m h₂ s' := by
  induction h₁ generalizing s with
  | nil =>
    constructor
    · exact fun h => ⟨s, rfl, h⟩
    · rintro ⟨m, rfl, h⟩
      exact h
  | cons e h₁ ih =>
    constructor
    · rintro ⟨m, hfirst, hrest⟩
      obtain ⟨m', hmiddle, hlast⟩ := ih.1 hrest
      exact ⟨m', ⟨m, hfirst, hmiddle⟩, hlast⟩
    · rintro ⟨m', ⟨m, hfirst, hmiddle⟩, hlast⟩
      exact ⟨m, hfirst, ih.2 ⟨m', hmiddle, hlast⟩⟩

/-- What every allowed request keeps is kept by a history of allowed requests. -/
theorem Served.invariant {ok : Op → Prop} {Inv : σ → Prop} (hserved : Served serve s h s')
    (hok : ∀ e ∈ h, ok e.1)
    (hstep : ∀ s op r s', ok op → serve s op r s' → Inv s → Inv s') (hs : Inv s) : Inv s' := by
  induction h generalizing s with
  | nil =>
    rw [Served] at hserved
    rwa [hserved]
  | cons e h ih =>
    obtain ⟨m, hfirst, hrest⟩ := hserved
    refine ih hrest (fun e' he' => hok e' (List.mem_cons_of_mem _ he')) ?_
    exact hstep s e.1 e.2 m (hok e List.mem_cons_self) hfirst hs

/-- The program takes the state `s` to `s'` by this history and ends so. -/
def Ends (serve : σ → (op : Op) → Reply op → σ → Prop) (s : σ) (p : Program Op Reply α)
    (h : History Reply) (x : Except PyError α) (s' : σ) : Prop :=
  Runs p h x ∧ Served serve s h s'

theorem ends_pure {a : α} {x : Except PyError α} :
    Ends serve s (.pure a : Program Op Reply α) h x s' ↔ h = [] ∧ x = .ok a ∧ s' = s := by
  constructor
  · rintro ⟨⟨rfl, rfl⟩, hs⟩
    exact ⟨rfl, rfl, hs⟩
  · rintro ⟨rfl, rfl, rfl⟩
    exact ⟨⟨rfl, rfl⟩, rfl⟩

theorem ends_ofExcept {x y : Except PyError α} :
    Ends serve s (ofExcept y : Program Op Reply α) h x s' ↔ h = [] ∧ x = y ∧ s' = s := by
  constructor
  · rintro ⟨hrun, hs⟩
    obtain ⟨rfl, rfl⟩ := runs_ofExcept.1 hrun
    exact ⟨rfl, rfl, hs⟩
  · rintro ⟨rfl, rfl, rfl⟩
    exact ⟨runs_ofExcept.2 ⟨rfl, rfl⟩, rfl⟩

theorem ends_perform {op : Op} {x : Except PyError (Reply op)} :
    Ends serve s (perform op) h x s' ↔ ∃ r, h = [⟨op, r⟩] ∧ x = .ok r ∧ serve s op r s' := by
  constructor
  · rintro ⟨hrun, hserved⟩
    obtain ⟨r, rfl, rfl⟩ := runs_perform.1 hrun
    obtain ⟨m, hserve, rfl⟩ := hserved
    exact ⟨r, rfl, rfl, hserve⟩
  · rintro ⟨r, rfl, rfl, hserve⟩
    exact ⟨runs_perform.2 ⟨r, rfl, rfl⟩, s', hserve, rfl⟩

theorem ends_bind {p : Program Op Reply α} {f : α → Program Op Reply β} {x : Except PyError β} :
    Ends serve s (p.bind f) h x s' ↔
      (∃ a h₁ h₂ m, h = h₁ ++ h₂ ∧ Ends serve s p h₁ (.ok a) m ∧ Ends serve m (f a) h₂ x s') ∨
      ∃ e, Ends serve s p h (.error e) s' ∧ x = .error e := by
  constructor
  · rintro ⟨hrun, hserved⟩
    rcases runs_bind.1 hrun with ⟨a, h₁, h₂, rfl, hfirst, hsecond⟩ | ⟨e, herror, rfl⟩
    · obtain ⟨m, hserved₁, hserved₂⟩ := served_append.1 hserved
      exact .inl ⟨a, h₁, h₂, m, rfl, ⟨hfirst, hserved₁⟩, hsecond, hserved₂⟩
    · exact .inr ⟨e, ⟨herror, hserved⟩, rfl⟩
  · rintro (⟨a, h₁, h₂, m, rfl, hfirst, hsecond⟩ | ⟨e, herror, rfl⟩)
    · exact ⟨runs_bind.2 (.inl ⟨a, h₁, h₂, rfl, hfirst.1, hsecond.1⟩),
        served_append.2 ⟨m, hfirst.2, hsecond.2⟩⟩
    · exact ⟨runs_bind.2 (.inr ⟨e, herror.1, rfl⟩), herror.2⟩

theorem ends_handle {p : Program Op Reply α} {f : PyError → Program Op Reply α}
    {x : Except PyError α} (hends : Ends serve s (p.handle f) h x s') :
    (∃ a, Ends serve s p h (.ok a) s' ∧ x = .ok a) ∨
      ∃ e h₁ h₂ m, h = h₁ ++ h₂ ∧ Ends serve s p h₁ (.error e) m ∧ Ends serve m (f e) h₂ x s' := by
  rcases runs_handle hends.1 with ⟨a, hrun, rfl⟩ | ⟨e, h₁, h₂, rfl, hfirst, hsecond⟩
  · exact .inl ⟨a, ⟨hrun, hends.2⟩, rfl⟩
  · obtain ⟨m, hserved₁, hserved₂⟩ := served_append.1 hends.2
    exact .inr ⟨e, h₁, h₂, m, rfl, ⟨hfirst, hserved₁⟩, hsecond, hserved₂⟩

theorem ends_raising {p : Program Op Reply (Except PyError α)} {x : Except PyError α} :
    Ends serve s (raising p) h x s' ↔
      Ends serve s p h (.ok x) s' ∨ ∃ e, Ends serve s p h (.error e) s' ∧ x = .error e := by
  constructor
  · rintro ⟨hrun, hserved⟩
    rcases runs_raising.1 hrun with hok | ⟨e, herror, rfl⟩
    · exact .inl ⟨hok, hserved⟩
    · exact .inr ⟨e, ⟨herror, hserved⟩, rfl⟩
  · rintro (hends | ⟨e, hends, rfl⟩)
    · exact ⟨runs_raising.2 (.inl hends.1), hends.2⟩
    · exact ⟨runs_raising.2 (.inr ⟨e, hends.1, rfl⟩), hends.2⟩

theorem ends_perform_cast {R : Type} {op : Op} (hreply : Reply op = R) {x : Except PyError R} :
    Ends serve s (hreply ▸ perform op) h x s' ↔
      ∃ r, h = [⟨op, r⟩] ∧ x = .ok (hreply ▸ r) ∧ serve s op r s' := by
  subst hreply
  exact ends_perform

/-- A request whose reply is how the program ends. -/
theorem ends_raising_perform (op : Op) (hreply : Reply op = Except PyError α)
    {x : Except PyError α} : Ends serve s (raising (hreply ▸ perform op)) h x s' ↔
      ∃ r, h = [⟨op, r⟩] ∧ x = hreply ▸ r ∧ serve s op r s' := by
  rw [ends_raising, ends_perform_cast]
  constructor
  · rintro (⟨r, rfl, hx, hserve⟩ | ⟨e, herror, -⟩)
    · exact ⟨r, rfl, Except.ok.inj hx, hserve⟩
    · obtain ⟨r, -, hr, -⟩ := (ends_perform_cast hreply).1 herror
      cases hr
  · rintro ⟨r, rfl, rfl, hserve⟩
    exact .inl ⟨r, rfl, rfl, hserve⟩

end Ends

end Program

end Foundation
