import HardyAI.Foundation.Program
import HardyAI.Foundation.Trace

/-! Programs run side by side over one state. Each step of a run is one request of one
thread, the start of a worker or an act from outside, and all of them are logged. -/

open Foundation.Trace

namespace Foundation

/-- What requests and outside acts do to the state, and the threads that a request starts. -/
structure Machine (σ Op Env Out Ans Start Child : Type) (Reply : Op → Type) where
  exec : Env → (op : Op) → σ → Reply op × σ
  outside : Out → σ → Ans × σ
  program : Start → Program Op Reply Unit
  spawns : Op → Option Child
  child : Child → Program Op Reply Unit

namespace Machine

variable {σ Op Env Out Ans Start Child : Type} {Reply : Op → Type}

inductive Entry (Out Ans : Type) (Reply : Op → Type)
  | ran (worker : Nat) (op : Op) (reply : Reply op)
  | outside (o : Out) (answer : Ans)

/-- A thread works for the worker that started it, whose history it shares. -/
structure Thread (Reply : Op → Type) where
  worker : Nat
  history : History Reply
  rest : Program Op Reply Unit

structure System (σ Out Ans : Type) (Reply : Op → Type) where
  state : σ
  threads : List (Thread Reply)
  log : List (Entry Out Ans Reply)

inductive Event (Env Out Start : Type)
  | start (a : Start)
  | step (i : Nat) (env : Env)
  | outside (o : Out)

variable (M : Machine σ Op Env Out Ans Start Child Reply)

def start (s : σ) : System σ Out Ans Reply := ⟨s, [], []⟩

/-- A thread that stands at a request is served. -/
def serve (s : System σ Out Ans Reply) (i : Nat) (env : Env) : System σ Out Ans Reply :=
  match s.threads[i]? with
  | some ⟨worker, history, .request op next⟩ =>
    let served := M.exec env op s.state
    { state := served.2
      threads := s.threads.set i ⟨worker, history ++ [⟨op, served.1⟩], next served.1⟩ ++
        (M.spawns op).toList.map fun a => ⟨worker, history ++ [⟨op, served.1⟩], M.child a⟩
      log := s.log ++ [.ran worker op served.1] }
  | some ⟨_, _, .pure _⟩ | some ⟨_, _, .raise _⟩ | none => s

def step (s : System σ Out Ans Reply) : Event Env Out Start → System σ Out Ans Reply
  | .start a => { s with threads := s.threads ++ [⟨s.threads.length, [], M.program a⟩] }
  | .step i env => M.serve s i env
  | .outside o =>
    { s with state := (M.outside o s.state).2, log := s.log ++ [.outside o (M.outside o s.state).1] }

/-- The request that thread `i` stands at. -/
def pending? (s : System σ Out Ans Reply) (i : Nat) : Option (Nat × History Reply × Op) :=
  match s.threads[i]? with
  | some ⟨worker, history, .request op _⟩ => some (worker, history, op)
  | some ⟨_, _, .pure _⟩ | some ⟨_, _, .raise _⟩ | none => none

variable {M} {s : System σ Out Ans Reply} {i : Nat} {env : Env}

theorem pending?_eq_some {worker : Nat} {history : History Reply} {op : Op} :
    pending? s i = some (worker, history, op) ↔
      ∃ next, s.threads[i]? = some ⟨worker, history, .request op next⟩ := by
  unfold pending?
  split
  · next w history' op' next heq =>
    rw [Option.some.injEq, Prod.mk.injEq, Prod.mk.injEq, heq]
    constructor
    · rintro ⟨rfl, rfl, rfl⟩
      exact ⟨next, rfl⟩
    · rintro ⟨next', hnext⟩
      obtain ⟨rfl, rfl, hrest⟩ := Thread.mk.inj (Option.some.inj hnext)
      exact ⟨rfl, rfl, (Program.request.inj hrest).1⟩
  · next heq => simp [heq]
  · next heq => simp [heq]
  · next heq => simp [heq]

theorem serve_of_pending {worker : Nat} {history : History Reply} {op : Op}
    (hpending : pending? s i = some (worker, history, op)) :
    (M.serve s i env).state = (M.exec env op s.state).2 ∧
      (M.serve s i env).log = s.log ++ [.ran worker op (M.exec env op s.state).1] := by
  obtain ⟨next, hnext⟩ := pending?_eq_some.1 hpending
  simp [serve, hnext]

theorem serve_of_idle (hidle : pending? s i = none) : M.serve s i env = s := by
  unfold pending? at hidle
  unfold serve
  split at hidle <;> simp_all

/-- A step serves one request, takes one act from outside, or leaves state and log alone. -/
theorem step_cases (s : System σ Out Ans Reply) (e : Event Env Out Start) :
    (∃ i env worker history op, e = .step i env ∧ pending? s i = some (worker, history, op) ∧
      (M.step s e).state = (M.exec env op s.state).2 ∧
      (M.step s e).log = s.log ++ [.ran worker op (M.exec env op s.state).1]) ∨
    (∃ o, e = .outside o ∧ (M.step s e).state = (M.outside o s.state).2 ∧
      (M.step s e).log = s.log ++ [.outside o (M.outside o s.state).1]) ∨
    ((∀ i env, e = .step i env → pending? s i = none) ∧
      (M.step s e).state = s.state ∧ (M.step s e).log = s.log) := by
  cases e with
  | start a => exact .inr (.inr ⟨nofun, rfl, rfl⟩)
  | outside o => exact .inr (.inl ⟨o, rfl, rfl, rfl⟩)
  | step i env =>
    cases hpending : pending? s i with
    | none =>
      have hidle : M.serve s i env = s := serve_of_idle hpending
      refine .inr (.inr ⟨?_, congrArg System.state hidle, congrArg System.log hidle⟩)
      rintro _ _ ⟨⟩
      exact hpending
    | some p =>
      obtain ⟨worker, history, op⟩ := p
      obtain ⟨hstate, hlog⟩ : (M.serve s i env).state = (M.exec env op s.state).2 ∧
          (M.serve s i env).log = s.log ++ [.ran worker op (M.exec env op s.state).1] :=
        serve_of_pending hpending
      exact .inl ⟨i, env, worker, history, op, rfl, hpending, hstate, hlog⟩

section Histories

/-- What thread `i` has asked for and seen. -/
def history? (s : System σ Out Ans Reply) (i : Nat) : Option (History Reply) :=
  (s.threads[i]?).map Thread.history

theorem history?_of_pending {worker : Nat} {history : History Reply} {op : Op}
    (hpending : pending? s i = some (worker, history, op)) : history? s i = some history := by
  obtain ⟨next, hnext⟩ := pending?_eq_some.1 hpending
  rw [history?, hnext, Option.map_some]

/-- A thread starts with nothing seen, as if it had not started. -/
theorem history?_start (a : Start) (j : Nat) :
    (history? (M.step s (.start a)) j).getD [] = (history? s j).getD [] := by
  simp only [history?, step]
  rcases lt_trichotomy j s.threads.length with hlt | rfl | hgt
  · rw [List.getElem?_append_left hlt]
  · rw [List.getElem?_concat_length, List.getElem?_eq_none le_rfl]
    rfl
  · rw [List.getElem?_eq_none hgt.le, List.getElem?_eq_none (by rw [List.length_append]; exact hgt)]

/-- Where threads start no others, a step adds to the history of its own thread alone. -/
theorem history?_serve (hspawns : ∀ op, M.spawns op = none) {worker : Nat}
    {history : History Reply} {op : Op}
    (hpending : pending? s i = some (worker, history, op)) (j : Nat) :
    history? (M.serve s i env) j =
      if j = i then some (history ++ [⟨op, (M.exec env op s.state).1⟩]) else history? s j := by
  obtain ⟨next, hnext⟩ := pending?_eq_some.1 hpending
  have hi : i < s.threads.length := (List.getElem?_eq_some_iff.1 hnext).1
  simp only [history?, serve, hnext, hspawns, Option.toList_none, List.map_nil, List.append_nil]
  by_cases hj : j = i
  · subst hj
    rw [List.getElem?_set_self hi, if_pos rfl, Option.map_some]
  · rw [List.getElem?_set_ne (Ne.symm hj), if_neg hj]

/-- Where threads start no others, a thread works for itself. -/
def Numbered (s : System σ Out Ans Reply) : Prop :=
  ∀ (i : Nat) (t : Thread Reply), s.threads[i]? = some t → t.worker = i

theorem Numbered.step (hspawns : ∀ op, M.spawns op = none) (h : Numbered s)
    (e : Event Env Out Start) : Numbered (M.step s e) := by
  intro j t ht
  cases e with
  | outside o => exact h j t ht
  | start a =>
    simp only [Machine.step, List.getElem?_append] at ht
    split at ht
    · exact h j t ht
    · next hlength =>
      rw [List.getElem?_singleton] at ht
      split at ht
      · next hj =>
        cases ht
        dsimp only
        omega
      · cases ht
  | step i env =>
    cases hpending : pending? s i with
    | none =>
      rw [Machine.step, serve_of_idle hpending] at ht
      exact h j t ht
    | some p =>
      obtain ⟨worker, history, op⟩ := p
      obtain ⟨next, hnext⟩ := pending?_eq_some.1 hpending
      simp only [Machine.step, serve, hnext, hspawns, Option.toList_none, List.map_nil,
        List.append_nil, List.getElem?_set] at ht
      split at ht
      · next hij =>
        subst hij
        split at ht
        · cases ht
          have hworker : worker = i := h i _ hnext
          exact hworker
        · cases ht
      · exact h j t ht

theorem Numbered.worker {worker : Nat} {history : History Reply} {op : Op} (h : Numbered s)
    (hpending : pending? s i = some (worker, history, op)) : worker = i := by
  obtain ⟨next, hnext⟩ := pending?_eq_some.1 hpending
  exact h i _ hnext

end Histories

section Conforming

/-- The thread keeps to `ok`, and what it has seen is logged in that order. -/
structure Follows (ok : History Reply → Op → Prop) (log : List (Entry Out Ans Reply))
    (t : Thread Reply) : Prop where
  conforms : Program.Safe ok t.history t.rest
  logged : List.Sublist (t.history.map fun e => Entry.ran t.worker e.1 e.2) log

variable {ok : History Reply → Op → Prop}

theorem Follows.logged_append {log log' : List (Entry Out Ans Reply)} {t : Thread Reply}
    (h : Follows ok log t) : Follows ok (log ++ log') t :=
  ⟨h.conforms, h.logged.trans (List.sublist_append_left log log')⟩

theorem step_follows (hstart : ∀ a, Program.Safe ok [] (M.program a))
    (hchild : ∀ h op a r, ok h op → M.spawns op = some a →
      Program.Safe ok (h ++ [⟨op, r⟩]) (M.child a))
    (e : Event Env Out Start) (hs : ∀ t ∈ s.threads, Follows ok s.log t) :
    ∀ t ∈ (M.step s e).threads, Follows ok (M.step s e).log t := by
  cases e with
  | outside o =>
    intro t ht
    exact (hs t ht).logged_append
  | start a =>
    intro t ht
    rcases List.mem_append.1 ht with ht | ht
    · exact hs t ht
    · obtain rfl := List.mem_singleton.1 ht
      exact ⟨hstart a, List.nil_sublist _⟩
  | step i env =>
    cases hpending : pending? s i with
    | none =>
      rw [step, serve_of_idle hpending]
      exact hs
    | some p =>
      obtain ⟨worker, history, op⟩ := p
      obtain ⟨next, hnext⟩ := pending?_eq_some.1 hpending
      have hold := hs _ (List.mem_of_getElem? hnext)
      have hlogged : List.Sublist
          ((history ++ [(⟨op, (M.exec env op s.state).1⟩ : Sigma Reply)]).map
            fun e => (Entry.ran worker e.1 e.2 : Entry Out Ans Reply))
          (s.log ++ [.ran worker op (M.exec env op s.state).1]) := by
        rw [List.map_append]
        exact hold.logged.append (List.Sublist.refl _)
      intro t ht
      simp only [step, serve, hnext] at ht ⊢
      rcases List.mem_append.1 ht with ht | ht
      · rcases List.mem_or_eq_of_mem_set ht with ht | rfl
        · exact (hs t ht).logged_append
        · exact ⟨hold.conforms.2 _, hlogged⟩
      · obtain ⟨a, ha, rfl⟩ := List.mem_map.1 ht
        exact ⟨hchild _ _ a _ hold.conforms.1 (by simpa using ha), hlogged⟩

/-- In every reachable state each thread stands at a request that its history allows. -/
theorem run_follows (hstart : ∀ a, Program.Safe ok [] (M.program a))
    (hchild : ∀ h op a r, ok h op → M.spawns op = some a →
      Program.Safe ok (h ++ [⟨op, r⟩]) (M.child a))
    (s₀ : σ) (es : List (Event Env Out Start)) :
    ∀ t ∈ (run M.step (start s₀) es).threads, Follows ok (run M.step (start s₀) es).log t := by
  have hstep : ∀ s (e : Event Env Out Start), (∀ t ∈ s.threads, Follows ok s.log t) →
      ∀ t ∈ (M.step s e).threads, Follows ok (M.step s e).log t :=
    fun s e hs => step_follows hstart hchild e hs
  refine run_invariant hstep ?_ es
  intro t ht
  simp [start] at ht

theorem Follows.allowed {worker : Nat} {history : History Reply} {op : Op}
    (hs : ∀ t ∈ s.threads, Follows ok s.log t)
    (hpending : pending? s i = some (worker, history, op)) :
    ok history op ∧ List.Sublist (history.map fun e => Entry.ran worker e.1 e.2) s.log := by
  obtain ⟨next, hnext⟩ := pending?_eq_some.1 hpending
  have h := hs _ (List.mem_of_getElem? hnext)
  exact ⟨h.conforms.1, h.logged⟩

end Conforming

section Started

variable {ok : History Reply → Op → Prop} {post : Start → History Reply → Except PyError Unit → Prop}
  {as : List Start}

/-- The workers that a run starts. -/
def started (es : List (Event Env Out Start)) : List Start :=
  es.filterMap fun | .start a => some a | .step .. | .outside _ => none

/-- The threads are those of these workers, and each keeps to what its own program promises. -/
structure Keeping (ok : History Reply → Op → Prop)
    (post : Start → History Reply → Except PyError Unit → Prop) (as : List Start)
    (threads : List (Thread Reply)) : Prop where
  length : threads.length = as.length
  conforms : ∀ (i : Nat) (a : Start) (t : Thread Reply), as[i]? = some a → threads[i]? = some t →
    Program.Conforms ok (post a) t.history t.rest

theorem Keeping.start (h : Keeping ok post as s.threads) {a : Start}
    (hstart : Program.Conforms ok (post a) [] (M.program a)) :
    Keeping ok post (as ++ [a]) (M.step s (.start a)).threads := by
  have hlength := h.length
  refine ⟨by rw [step, List.length_append, List.length_append, hlength]; rfl, ?_⟩
  intro i a' t ha ht
  rw [step] at ht
  rcases Nat.lt_or_ge i as.length with hlt | hge
  · rw [List.getElem?_append_left hlt] at ha
    rw [List.getElem?_append_left (by omega)] at ht
    exact h.conforms i a' t ha ht
  · rw [List.getElem?_append_right hge, List.getElem?_singleton] at ha
    rw [List.getElem?_append_right (by omega), List.getElem?_singleton] at ht
    split at ha
    · split at ht
      · cases ha
        cases ht
        exact hstart
      · cases ht
    · cases ha

theorem Keeping.serve (hspawns : ∀ op, M.spawns op = none) (h : Keeping ok post as s.threads) :
    Keeping ok post as (M.serve s i env).threads := by
  cases hpending : pending? s i with
  | none =>
    rw [serve_of_idle hpending]
    exact h
  | some p =>
    obtain ⟨worker, history, op⟩ := p
    obtain ⟨next, hnext⟩ := pending?_eq_some.1 hpending
    have hthreads : (M.serve s i env).threads = s.threads.set i
        ⟨worker, history ++ [⟨op, (M.exec env op s.state).1⟩], next (M.exec env op s.state).1⟩ := by
      simp only [Machine.serve, hnext, hspawns, Option.toList_none, List.map_nil, List.append_nil]
    rw [hthreads]
    refine ⟨by rw [List.length_set, h.length], ?_⟩
    intro j a t ha ht
    rw [List.getElem?_set] at ht
    split at ht
    · next hij =>
      subst hij
      split at ht
      · cases ht
        exact (h.conforms i a _ ha hnext).2 _
      · cases ht
    · exact h.conforms j a t ha ht

/-- Where threads start no others, each thread of a run keeps to what its program promises. -/
theorem run_keeping (hspawns : ∀ op, M.spawns op = none)
    (hstart : ∀ a, Program.Conforms ok (post a) [] (M.program a)) (s₀ : σ)
    (es : List (Event Env Out Start)) :
    Keeping ok post (started es) (run M.step (start s₀) es).threads := by
  induction es using List.reverseRecOn with
  | nil => exact ⟨rfl, fun _ _ _ ha => by cases ha⟩
  | append_singleton es e ih =>
    rw [run_concat]
    cases e with
    | outside o =>
      have hsame : started (es ++ [Event.outside o]) = (started es : List Start) := by
        simp [started]
      rw [hsame]
      exact ih
    | start a =>
      have hmore : started (es ++ [Event.start a]) = (started es ++ [a] : List Start) := by
        simp [started]
      rw [hmore]
      exact ih.start (hstart a)
    | step i env =>
      have hsame : started (es ++ [Event.step i env]) = (started es : List Start) := by
        simp [started]
      rw [hsame]
      exact ih.serve hspawns

end Started

end Machine

end Foundation
