import Mathlib.Logic.Function.Basic
import Mathlib.Order.Lattice
import Mathlib.Tactic.Common

/-! Leases that name no owner. A worker that claims a key learns the number of its attempt, and
only the number in the ledger tells whether another worker has claimed the key since. -/

namespace Foundation

inductive LeaseStatus (Done : Type)
  | held
  | done (d : Done)
  | failed
  | deadLetter
  deriving DecidableEq

def LeaseStatus.isDone {Done : Type} : LeaseStatus Done → Bool
  | .done _ => true
  | .held | .failed | .deadLetter => false

structure Lease (Done T : Type) where
  status : LeaseStatus Done
  attemptCount : Int
  updatedAt : T
  deriving DecidableEq

inductive Verdict
  | settled | exhausted | leased | free
  deriving DecidableEq

namespace Lease

variable {Done T : Type}

section Verdict

variable [LinearOrder T] {l : Lease Done T} {staleBefore : T} {limit : Int}

/-- What a claim finds. The attempts are counted before the lease is looked at. -/
def verdict (l : Lease Done T) (staleBefore : T) (limit : Int) : Verdict :=
  if l.status.isDone then .settled
  else if limit ≤ l.attemptCount then .exhausted
  else match l.status with
    | .held => if staleBefore ≤ l.updatedAt then .leased else .free
    | .done _ | .failed | .deadLetter => .free

theorem verdict_of_done (h : l.status.isDone = true) : l.verdict staleBefore limit = .settled := by
  rw [verdict, if_pos h]

/-- A lease is found free only with attempts left. -/
theorem verdict_eq_free (h : l.verdict staleBefore limit = .free) :
    l.status.isDone = false ∧ l.attemptCount < limit ∧
      (l.status = .held → l.updatedAt < staleBefore) := by
  unfold verdict at h
  split at h
  · cases h
  · next hdone =>
    split at h
    · cases h
    · next hlimit =>
      refine ⟨Bool.eq_false_iff.2 hdone, Int.not_le.1 hlimit, fun hheld => ?_⟩
      rw [hheld] at h
      by_contra hfresh
      simp [not_lt.1 hfresh] at h

theorem verdict_eq_exhausted (h : l.verdict staleBefore limit = .exhausted) :
    l.status.isDone = false ∧ limit ≤ l.attemptCount := by
  unfold verdict at h
  split at h
  · cases h
  · next hdone =>
    split at h
    · next hlimit => exact ⟨Bool.eq_false_iff.2 hdone, hlimit⟩
    · split at h
      · split at h <;> cases h
      all_goals cases h

end Verdict

def exhaust (now : T) (l : Lease Done T) : Lease Done T :=
  match l.status with
  | .deadLetter => l
  | .held | .done _ | .failed => { l with status := .deadLetter, updatedAt := now }

def retake (now : T) (l : Lease Done T) : Lease Done T :=
  { status := .held, attemptCount := l.attemptCount + 1, updatedAt := now }

def setStatus (status : LeaseStatus Done) (now : T) (l : Lease Done T) : Lease Done T :=
  { l with status, updatedAt := now }

variable {l : Lease Done T} {now : T}

theorem exhaust_attemptCount : (l.exhaust now).attemptCount = l.attemptCount := by
  unfold exhaust
  split <;> rfl

theorem exhaust_status : (l.exhaust now).status = .deadLetter := by
  unfold exhaust
  split
  · assumption
  all_goals rfl

end Lease

/-- The claim a worker knows of: its key, the number of the attempt and the time of the claim. -/
structure Holding (κ T : Type) where
  key : κ
  attempt : Int
  since : T

@[ext] structure Ledger (κ Done T : Type) where
  lease : κ → Option (Lease Done T)
  holding : Nat → Option (Holding κ T)

/-- What the worker `w` does about a key. -/
inductive LeaseAct (κ Done T : Type)
  | claim (w : Nat) (k : κ) (now staleBefore : T)
  | use (w : Nat) (k : κ)
  | release (w : Nat) (k : κ) (status : LeaseStatus Done) (now : T)

def LeaseAct.worker {κ Done T : Type} : LeaseAct κ Done T → Nat
  | .claim w _ _ _ | .use w _ | .release w _ _ _ => w

namespace Ledger

variable {κ Done T : Type}

def empty : Ledger κ Done T := ⟨fun _ => none, fun _ => none⟩

section Claims

variable [DecidableEq κ]

def grant (L : Ledger κ Done T) (w : Nat) (k : κ) (attempt : Int) (now : T) : Ledger κ Done T where
  lease := Function.update L.lease k (some ⟨.held, attempt, now⟩)
  holding := Function.update L.holding w (some ⟨k, attempt, now⟩)

/-- The worker writes the status of the key, whoever has claimed it, and is done with it. -/
def release (L : Ledger κ Done T) (w : Nat) (k : κ) (status : LeaseStatus Done) (now : T) :
    Ledger κ Done T where
  lease := Function.update L.lease k
    ((L.lease k).map (Lease.setStatus status now))
  holding := Function.update L.holding w none

end Claims

/-- The latest claim of the key is the one the worker knows of. -/
def Holds (L : Ledger κ Done T) (w : Nat) (h : Holding κ T) (l : Lease Done T) : Prop :=
  L.holding w = some h ∧ L.lease h.key = some l ∧ h.attempt = l.attemptCount

/-- What the numbers of the attempts tell in every state. -/
structure Sane (limit : Int) (L : Ledger κ Done T) : Prop where
  bounded : ∀ k l, L.lease k = some l → l.attemptCount ≤ limit
  known : ∀ w h, L.holding w = some h → ∃ l, L.lease h.key = some l ∧ h.attempt ≤ l.attemptCount
  apart : ∀ w w' h h', L.holding w = some h → L.holding w' = some h' → h.key = h'.key →
    h.attempt = h'.attempt → w = w'

/-- The key that a worker has claimed last is held for it since then, or has run out of
attempts. -/
def Orderly (limit : Int) (L : Ledger κ Done T) : Prop :=
  ∀ w h l, L.Holds w h l → (l.status = .held ∧ l.updatedAt = h.since) ∨
    (l.status = .deadLetter ∧ limit ≤ l.attemptCount)

section Preservation

variable {limit : Int} {L : Ledger κ Done T}

theorem sane_empty : Sane limit (empty : Ledger κ Done T) :=
  ⟨nofun, nofun, nofun⟩

theorem orderly_empty : Orderly limit (empty : Ledger κ Done T) := by
  rintro w h l ⟨hholding, -⟩
  cases hholding

/-- Leases that change without a new attempt, while workers only let go of their claims. -/
theorem Sane.of_map {L' : Ledger κ Done T} {f : κ → Lease Done T → Lease Done T}
    (hs : Sane limit L) (hlease : ∀ k, L'.lease k = (L.lease k).map (f k))
    (hattempts : ∀ k l, (f k l).attemptCount = l.attemptCount)
    (hholding : ∀ w h, L'.holding w = some h → L.holding w = some h) : Sane limit L' := by
  constructor
  · intro k l hl
    rw [hlease] at hl
    obtain ⟨old, hold, rfl⟩ := Option.map_eq_some_iff.1 hl
    rw [hattempts]
    exact hs.bounded k old hold
  · intro w h hheld
    obtain ⟨l, hl, hle⟩ := hs.known w h (hholding w h hheld)
    exact ⟨f h.key l, by rw [hlease, hl, Option.map_some], by rwa [hattempts]⟩
  · intro w w' h h' hheld hheld'
    exact hs.apart w w' h h' (hholding w h hheld) (hholding w' h' hheld')

variable [DecidableEq κ]

theorem lease_grant {w : Nat} {k : κ} {attempt : Int} {now : T} (k' : κ) :
    (L.grant w k attempt now).lease k' =
      if k' = k then some ⟨.held, attempt, now⟩ else L.lease k' := by
  simp only [grant, Function.update_apply]

theorem holding_grant {w : Nat} {k : κ} {attempt : Int} {now : T} (w' : Nat) :
    (L.grant w k attempt now).holding w' =
      if w' = w then some ⟨k, attempt, now⟩ else L.holding w' := by
  simp only [grant, Function.update_apply]

/-- The number of a granted attempt is new, and within the limit. -/
theorem Sane.grant {w : Nat} {k : κ} {attempt : Int} {now : T} (hs : Sane limit L)
    (hlimit : attempt ≤ limit) (hnew : ∀ l, L.lease k = some l → l.attemptCount < attempt) :
    Sane limit (L.grant w k attempt now) := by
  have hless : ∀ w' h, L.holding w' = some h → h.key = k → h.attempt < attempt := by
    intro w' h hheld hkey
    obtain ⟨l, hl, hle⟩ := hs.known w' h hheld
    have hlt := hnew l (hkey ▸ hl)
    omega
  constructor
  · intro k' l hl
    rw [lease_grant] at hl
    split_ifs at hl with hk
    · cases hl
      exact hlimit
    · exact hs.bounded k' l hl
  · intro w' h hheld
    rw [holding_grant] at hheld
    rw [lease_grant]
    split_ifs at hheld with hw
    · cases hheld
      exact ⟨_, if_pos rfl, Int.le_refl _⟩
    · obtain ⟨l, hl, hle⟩ := hs.known w' h hheld
      by_cases hk : h.key = k
      · exact ⟨_, if_pos hk, Int.le_of_lt (hless w' h hheld hk)⟩
      · exact ⟨l, by rw [if_neg hk, hl], hle⟩
  · intro w₁ w₂ h₁ h₂ hheld₁ hheld₂ hkey hattempt
    rw [holding_grant] at hheld₁ hheld₂
    split_ifs at hheld₁ hheld₂ with hw₁ hw₂ hw₂
    · rw [hw₁, hw₂]
    · cases hheld₁
      have hlt := hless w₂ h₂ hheld₂ hkey.symm
      simp only at hattempt
      omega
    · cases hheld₂
      have hlt := hless w₁ h₁ hheld₁ hkey
      simp only at hattempt
      omega
    · exact hs.apart w₁ w₂ h₁ h₂ hheld₁ hheld₂ hkey hattempt

theorem update_eq_map {k : κ} {l : Lease Done T} {f : Lease Done T → Lease Done T}
    (hl : L.lease k = some l) (k' : κ) :
    Function.update L.lease k (some (f l)) k' =
      (L.lease k').map fun x => if k' = k then f x else x := by
  by_cases hk : k' = k
  · subst hk
    simp [hl]
  · simp [hk]

theorem lease_release {w : Nat} {k : κ} {status : LeaseStatus Done} {now : T} (k' : κ) :
    (L.release w k status now).lease k' = (L.lease k').map fun l =>
      if k' = k then l.setStatus status now else l := by
  by_cases hk : k' = k
  · subst hk
    simp [release]
  · simp [release, hk]

theorem holding_release {w w' : Nat} {k : κ} {status : LeaseStatus Done} {now : T}
    {h : Holding κ T} (hheld : (L.release w k status now).holding w' = some h) :
    w' ≠ w ∧ L.holding w' = some h := by
  simp only [release, Function.update_apply] at hheld
  split_ifs at hheld with hw
  exact ⟨hw, hheld⟩

theorem Sane.release {w : Nat} {k : κ} {status : LeaseStatus Done} {now : T} (hs : Sane limit L) :
    Sane limit (L.release w k status now) := by
  refine hs.of_map (fun k' => lease_release k') (fun k' l => ?_) fun w' h hheld =>
    (holding_release hheld).2
  split_ifs <;> rfl

/-- A worker that is not the latest to claim the key leaves it with its claim. -/
theorem holds_release {w v : Nat} {k : κ} {status : LeaseStatus Done} {now : T}
    (hs : Sane limit L) (hw : ∃ h l, L.Holds w h l ∧ h.key = k) {h : Holding κ T}
    {l : Lease Done T} (hv : (L.release w k status now).Holds v h l) :
    h.key ≠ k ∧ L.Holds v h l := by
  obtain ⟨hheld, hl, hattempt⟩ := hv
  obtain ⟨hne, hold⟩ := holding_release hheld
  obtain ⟨h', l', ⟨hheld', hl', hattempt'⟩, rfl⟩ := hw
  rw [lease_release] at hl
  obtain ⟨old, hlold, rfl⟩ := Option.map_eq_some_iff.1 hl
  by_cases hk : h.key = h'.key
  · rw [hk, hl', Option.some.injEq] at hlold
    subst hlold
    rw [if_pos hk] at hattempt
    exact absurd (hs.apart v w h h' hold hheld' hk (hattempt.trans hattempt'.symm)) hne
  · rw [if_neg hk] at hattempt ⊢
    exact ⟨hk, hold, hlold, hattempt⟩

theorem Orderly.release {w : Nat} {k : κ} {status : LeaseStatus Done} {now : T}
    (hs : Sane limit L) (ho : Orderly limit L) (hw : ∃ h l, L.Holds w h l ∧ h.key = k) :
    Orderly limit (L.release w k status now) :=
  fun v h l hv => ho v h l (holds_release hs hw hv).2

theorem Orderly.grant {w : Nat} {k : κ} {attempt : Int} {now : T} (hs : Sane limit L)
    (ho : Orderly limit L) (hnew : ∀ l, L.lease k = some l → l.attemptCount < attempt) :
    Orderly limit (L.grant w k attempt now) := by
  rintro v h l ⟨hheld, hl, hattempt⟩
  rw [holding_grant] at hheld
  rw [lease_grant] at hl
  split_ifs at hheld with hv
  · cases hheld
    rw [if_pos rfl, Option.some.injEq] at hl
    subst hl
    exact .inl ⟨rfl, rfl⟩
  · split_ifs at hl with hk
    · cases hl
      obtain ⟨old, hold, hle⟩ := hs.known v h hheld
      have hlt := hnew old (hk ▸ hold)
      simp only at hattempt
      omega
    · exact ho v h l ⟨hheld, hl, hattempt⟩

omit [DecidableEq κ] in
/-- Nothing is used or released once it is done. -/
theorem not_done_of_holds (ho : Orderly limit L) {w : Nat} {k : κ} {l : Lease Done T}
    (hw : ∃ h l, L.Holds w h l ∧ h.key = k) (hl : L.lease k = some l) :
    l.status.isDone = false := by
  obtain ⟨h, l', hholds, rfl⟩ := hw
  obtain rfl : l' = l := Option.some.inj (hholds.2.1.symm.trans hl)
  rcases ho w h l' hholds with ⟨hheld, -⟩ | ⟨hdead, -⟩
  · rw [hheld, LeaseStatus.isDone]
  · rw [hdead, LeaseStatus.isDone]

end Preservation

section Acts

variable [DecidableEq κ] [LinearOrder T] {limit : Int} {L : Ledger κ Done T}

def act (limit : Int) (L : Ledger κ Done T) : LeaseAct κ Done T → Ledger κ Done T
  | .claim w k now staleBefore =>
    match L.lease k with
    | none => L.grant w k 1 now
    | some l =>
      match l.verdict staleBefore limit with
      | .settled | .leased => L
      | .exhausted => { L with lease := Function.update L.lease k (some (l.exhaust now)) }
      | .free => L.grant w k (l.attemptCount + 1) now
  | .use _ _ => L
  | .release w k status now => L.release w k status now

/-- No claim meets the lease of another worker that lasts and has used all attempts, and what is
not a claim is done under the latest claim of the key. -/
def Fenced (limit : Int) (L : Ledger κ Done T) : LeaseAct κ Done T → Prop
  | .claim w k _ staleBefore => ∀ v h l, v ≠ w → L.Holds v h l → h.key = k → l.status = .held →
      staleBefore ≤ h.since → l.attemptCount < limit
  | .use w k | .release w k _ _ => ∃ h l, L.Holds w h l ∧ h.key = k

/-- The four outcomes of a claim. -/
theorem claim_cases (limit : Int) (L : Ledger κ Done T) (w : Nat) (k : κ) (now staleBefore : T) :
    (L.lease k = none ∧ L.act limit (.claim w k now staleBefore) = L.grant w k 1 now) ∨
    (∃ l, L.lease k = some l ∧ (l.verdict staleBefore limit = .settled ∨
        l.verdict staleBefore limit = .leased) ∧ L.act limit (.claim w k now staleBefore) = L) ∨
    (∃ l, L.lease k = some l ∧ l.verdict staleBefore limit = .exhausted ∧
      L.act limit (.claim w k now staleBefore) =
        { L with lease := Function.update L.lease k (some (l.exhaust now)) }) ∨
    (∃ l, L.lease k = some l ∧ l.verdict staleBefore limit = .free ∧
      L.act limit (.claim w k now staleBefore) = L.grant w k (l.attemptCount + 1) now) := by
  cases hl : L.lease k with
  | none => exact .inl ⟨rfl, by simp only [act, hl]⟩
  | some l =>
    refine .inr ?_
    cases hv : l.verdict staleBefore limit with
    | settled => exact .inl ⟨l, rfl, .inl hv, by simp only [act, hl, hv]⟩
    | leased => exact .inl ⟨l, rfl, .inr hv, by simp only [act, hl, hv]⟩
    | exhausted => exact .inr (.inl ⟨l, rfl, hv, by simp only [act, hl, hv]⟩)
    | free => exact .inr (.inr ⟨l, rfl, hv, by simp only [act, hl, hv]⟩)

theorem lease_claim_of_ne {w : Nat} {k k' : κ} {now staleBefore : T} (hk : k' ≠ k) :
    (L.act limit (.claim w k now staleBefore)).lease k' = L.lease k' := by
  rcases claim_cases limit L w k now staleBefore with ⟨_, hact⟩ | ⟨_, _, _, hact⟩ |
    ⟨_, _, _, hact⟩ | ⟨_, _, _, hact⟩
  all_goals rw [hact]
  · rw [lease_grant, if_neg hk]
  · simp only [Function.update_of_ne hk]
  · rw [lease_grant, if_neg hk]

theorem Sane.act (hlimit : 1 ≤ limit) (hs : Sane limit L) (a : LeaseAct κ Done T) :
    Sane limit (L.act limit a) := by
  cases a with
  | claim w k now staleBefore =>
    rcases claim_cases limit L w k now staleBefore with ⟨hnone, hact⟩ | ⟨l, -, -, hact⟩ |
      ⟨l, hl, -, hact⟩ | ⟨l, hl, hv, hact⟩
    · rw [hact]
      refine hs.grant hlimit fun l hl => ?_
      rw [hnone] at hl
      cases hl
    · rwa [hact]
    · rw [hact]
      refine hs.of_map (update_eq_map hl) (fun k' l' => ?_) fun _ _ hheld => hheld
      split_ifs
      · exact Lease.exhaust_attemptCount
      · rfl
    · rw [hact]
      refine hs.grant (Lease.verdict_eq_free hv).2.1 fun l' hl' => ?_
      rw [hl] at hl'
      cases hl'
      exact Int.lt_succ _
  | use w k => exact hs
  | release w k status now => exact hs.release

/-- The ledger after an act, where there is one. -/
def after (limit : Int) (L : Ledger κ Done T) (a : Option (LeaseAct κ Done T)) : Ledger κ Done T :=
  a.elim L (L.act limit)

theorem Sane.after (hlimit : 1 ≤ limit) (hs : Sane limit L) (a : Option (LeaseAct κ Done T)) :
    Sane limit (L.after limit a) := by
  cases a with
  | none => exact hs
  | some a => exact hs.act hlimit a

theorem Orderly.act (hs : Sane limit L) (ho : Orderly limit L) {a : LeaseAct κ Done T}
    (ha : L.Fenced limit a) : Orderly limit (L.act limit a) := by
  cases a with
  | claim w k now staleBefore =>
    rcases claim_cases limit L w k now staleBefore with ⟨hnone, hact⟩ | ⟨l, -, -, hact⟩ |
      ⟨l, hl, hv, hact⟩ | ⟨l, hl, hv, hact⟩
    · rw [hact]
      refine ho.grant hs fun l hl => ?_
      rw [hnone] at hl
      cases hl
    · rwa [hact]
    · rw [hact]
      rintro v h l' ⟨hheld, hl', hattempt⟩
      by_cases hk : h.key = k
      · simp only [hk, Function.update_self, Option.some.injEq] at hl'
        subst hl'
        refine .inr ⟨Lease.exhaust_status, ?_⟩
        rw [Lease.exhaust_attemptCount]
        exact (Lease.verdict_eq_exhausted hv).2
      · simp only [Function.update_of_ne hk] at hl'
        exact ho v h l' ⟨hheld, hl', hattempt⟩
    · rw [hact]
      refine ho.grant hs fun l' hl' => ?_
      rw [hl] at hl'
      cases hl'
      exact Int.lt_succ _
  | use w k => exact ho
  | release w k status now => exact ho.release hs ha

theorem Orderly.after (hs : Sane limit L) (ho : Orderly limit L) {a : Option (LeaseAct κ Done T)}
    (ha : ∀ a', a = some a' → L.Fenced limit a') : Orderly limit (L.after limit a) := by
  cases a with
  | none => exact ho
  | some a => exact ho.act hs (ha a rfl)

/-- What is done stays as it is. -/
theorem lease_act_of_done (ho : Orderly limit L) {a : LeaseAct κ Done T} (ha : L.Fenced limit a)
    {k : κ} {l : Lease Done T} (hl : L.lease k = some l) (hdone : l.status.isDone = true) :
    (L.act limit a).lease k = some l := by
  have hrelease : ∀ w k' status (now : T), (∃ h l, L.Holds w h l ∧ h.key = k') →
      (L.release w k' status now).lease k = some l := by
    intro w k' status now hw
    rw [lease_release, hl, Option.map_some, if_neg]
    rintro rfl
    rw [not_done_of_holds ho hw hl] at hdone
    cases hdone
  cases a with
  | claim w k' now staleBefore =>
    by_cases hk : k = k'
    · subst hk
      simp only [act, hl, Lease.verdict_of_done hdone]
    · rw [lease_claim_of_ne hk, hl]
  | use w k' => exact hl
  | release w k' status now => exact hrelease w k' status now ha

theorem lease_after_of_done (ho : Orderly limit L) {a : Option (LeaseAct κ Done T)}
    (ha : ∀ a', a = some a' → L.Fenced limit a') {k : κ} {l : Lease Done T}
    (hl : L.lease k = some l) (hdone : l.status.isDone = true) :
    (L.after limit a).lease k = some l := by
  cases a with
  | none => exact hl
  | some a => exact lease_act_of_done ho (ha a rfl) hl hdone

/-- A lease that lasts is left to the worker whose claim it is. -/
theorem lease_act_of_holds (hs : Sane limit L) (ho : Orderly limit L) {a : LeaseAct κ Done T}
    (ha : L.Fenced limit a) {v : Nat} {h : Holding κ T} {l : Lease Done T} (hv : L.Holds v h l)
    (hne : v ≠ a.worker)
    (hlasts : ∀ w now staleBefore, a = .claim w h.key now staleBefore → staleBefore ≤ h.since) :
    (L.act limit a).lease h.key = some l := by
  cases a with
  | claim w k now staleBefore =>
    by_cases hk : h.key = k
    · subst hk
      have hfresh := hlasts w now staleBefore rfl
      rcases ho v h l hv with ⟨hheld, hsince⟩ | ⟨hdead, hlimit⟩
      · have hless : ¬ limit ≤ l.attemptCount := Int.not_le.2 (ha v h l hne hv rfl hheld hfresh)
        have hleased : l.verdict staleBefore limit = .leased := by
          rw [← hsince] at hfresh
          simp [Lease.verdict, hheld, LeaseStatus.isDone, hless, hfresh]
        simp only [act, hv.2.1, hleased]
      · have hexhausted : l.verdict staleBefore limit = .exhausted := by
          simp [Lease.verdict, hdead, LeaseStatus.isDone, hlimit]
        have hsame : l.exhaust now = l := by simp only [Lease.exhaust, hdead]
        simp only [act, hv.2.1, hexhausted, hsame, Function.update_self]
    · rw [lease_claim_of_ne hk, hv.2.1]
  | use w k => exact hv.2.1
  | release w k status now =>
    obtain ⟨h', l', hw, rfl⟩ := ha
    rw [act, lease_release, hv.2.1, Option.map_some, if_neg]
    intro hk
    obtain rfl : l = l' := Option.some.inj (hv.2.1.symm.trans (hk ▸ hw.2.1))
    have hsame : v = w := hs.apart v w h h' hv.1 hw.1 hk (hv.2.2.trans hw.2.2.symm)
    exact hne hsame

end Acts

end Ledger

end Foundation
