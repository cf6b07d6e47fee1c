import HardyAI.Core.EffectReplay
import Mathlib.Data.List.Dedup

/-! What a run of the tool loop reports of its committed effects. -/

open Foundation Foundation.Json Foundation.Trace HardyAI.Skills

namespace HardyAI.Core

section Records

/-- The observation that a call was answered with. -/
def CallRecord.observation? (r : CallRecord) : Option ToolObservation :=
  match r.answer with
  | .dispatched o => o
  | .replayed o => some o

/-- The call was dispatched, and has committed an effect. -/
def CallRecord.committedEffect (r : CallRecord) : Bool := r.effectful && r.committed

/-- The call was answered with a committed observation that is not of an effect of its own. -/
def CallRecord.borrowed (r : CallRecord) : Bool :=
  match r.answer with
  | .dispatched (some o) => !r.effectful && o.committedEffect
  | .dispatched none => false
  | .replayed o => o.committedEffect

/-- `committed_effect_count` of the outcome. -/
def LoopState.reportedCount (s : LoopState) : Option Nat :=
  match s.stopped with
  | some .responded | some .deadlineExceeded | some .contractChanged | some .identicalReadLimit
  | some .observationLimit | some .limit => some s.committedEffectCount
  | some (.tool _) => some (s.observations.countP (·.committedEffect))
  | some .clarified | some .shadowBlocked => some 0
  | some (.raised _) | none => none

variable [PythonText]

/-- The different calls of a run that were dispatched and have committed. -/
def LoopState.committedCalls (s : LoopState) : List (Except PyError CallKey) :=
  ((s.calls.filter CallRecord.committedEffect).map CallRecord.key?).dedup

end Records

section Tallies

variable [PythonText] {l : LoopLimits} {root : Str} {s : LoopState} {c : CallStep} {key : CallKey}

/-- The run has not met an exception. -/
def LoopState.Calm (s : LoopState) : Prop := ∀ e, s.stopped ≠ some (.raised e)

/-- The counter counts the committed calls, and the observations are the answers. -/
structure Tallied (s : LoopState) : Prop where
  counted : s.Calm → s.committedEffectCount = s.calls.countP CallRecord.committedEffect
  observed : s.Calm → s.observations = s.calls.filterMap CallRecord.observation?

omit [PythonText] in
theorem afterObservation_tally (o : ToolObservation) (chars : Nat) :
    (afterObservation l c o chars s).observations = s.observations ∧
      (afterObservation l c o chars s).committedEffectCount = s.committedEffectCount := by
  unfold afterObservation
  split
  · exact ⟨rfl, rfl⟩
  · cases o.status <;> exact ⟨rfl, rfl⟩

omit [PythonText] in
/-- Nothing is tallied where the calls, the observations and the counters stay. -/
theorem Tallied.of_same {s' : LoopState} (h : Tallied s) (hcalls : s'.calls = s.calls)
    (hobservations : s'.observations = s.observations)
    (hcount : s'.committedEffectCount = s.committedEffectCount) (hcalm : s'.Calm → s.Calm) :
    Tallied s' where
  counted hs := by
    rw [hcount, hcalls]
    exact h.counted (hcalm hs)
  observed hs := by
    rw [hobservations, hcalls]
    exact h.observed (hcalm hs)

omit [PythonText] in
theorem not_calm_raised {e : PyError} : ¬ (s.stop (.raised e)).Calm := fun h => h e rfl

omit [PythonText] in
theorem tallied_of_raised {s' : LoopState} (h : ¬ s'.Calm) : Tallied s' :=
  ⟨fun hs => absurd hs h, fun hs => absurd hs h⟩

omit [PythonText] in
/-- A call that comes back with nothing to observe. -/
theorem Tallied.record_none (h : Tallied s) (hcalm : s.Calm) :
    Tallied (record c (.dispatched none) s) := by
  have hnew : CallRecord.committedEffect ⟨c.descriptor, c.arguments, .dispatched none⟩ = false := by
    rw [CallRecord.committedEffect]
    exact Bool.and_false _
  refine ⟨fun _ => ?_, fun _ => ?_⟩
  · rw [record, List.countP_append, List.countP_singleton, hnew]
    exact h.counted hcalm
  · rw [record, List.filterMap_append]
    exact (h.observed hcalm).trans (List.append_nil _).symm

omit [PythonText] in
/-- An observation that is dispatched is counted if it is of an effect. -/
theorem Tallied.observe {o : ToolObservation} {chars : Nat} (h : Tallied s) (hcalm : s.Calm) :
    Tallied (Core.observe c key o chars (record c (.dispatched (some o)) s)) := by
  refine ⟨fun _ => ?_, fun _ => ?_⟩
  · have hnew : CallRecord.committedEffect ⟨c.descriptor, c.arguments, .dispatched (some o)⟩ =
        decide (c.descriptor.effect ≠ .read ∧ o.committedEffect = true) := by
      simp [CallRecord.committedEffect, CallRecord.effectful, CallRecord.committed]
    simp only [Core.observe, record, List.countP_append, List.countP_singleton, hnew,
      decide_eq_true_eq, ← h.counted hcalm]
    split <;> rfl
  · simp only [Core.observe, record, List.filterMap_append, ← h.observed hcalm]
    rfl

omit [PythonText] in
/-- A replayed answer is observed once more, and counted no more. -/
theorem Tallied.replay {o : ToolObservation} (h : Tallied s) (hcalm : s.Calm) :
    Tallied { record c (.replayed o) s with observations := s.observations ++ [o] } := by
  have hnew : CallRecord.committedEffect ⟨c.descriptor, c.arguments, .replayed o⟩ = false := by
    rw [CallRecord.committedEffect]
    exact Bool.and_false _
  refine ⟨fun _ => ?_, fun _ => ?_⟩
  · simp only [record, List.countP_append, List.countP_singleton, hnew]
    exact h.counted hcalm
  · simp only [record, List.filterMap_append, ← h.observed hcalm]
    rfl

omit [PythonText] in
theorem calm_of_going (h : s.stopped = none) : s.Calm := fun e => by rw [h]; nofun

theorem Tallied.dispatch (h : Tallied s) (hgoing : s.stopped = none) :
    Tallied (Core.dispatch l root c key s) := by
  have hcalm : s.Calm := calm_of_going hgoing
  have hstart : Tallied { s with callOrdinal := s.callOrdinal + 1 } :=
    h.of_same rfl rfl rfl fun _ => hcalm
  unfold Core.dispatch
  dsimp only
  split
  · exact tallied_of_raised not_calm_raised
  · exact (hstart.record_none hcalm).of_same rfl rfl rfl fun _ => hcalm
  · next o _ =>
    split
    · exact tallied_of_raised not_calm_raised
    · next projection hprojection =>
      obtain ⟨hobservations, hcount⟩ := @afterObservation_tally l
        (Core.observe c key o projection.length
          (record c (.dispatched (some o)) { s with callOrdinal := s.callOrdinal + 1 })) c o
        projection.length
      exact (hstart.observe hcalm).of_same (afterObservation_frame o projection.length).1
        hobservations hcount fun _ => hcalm

theorem Tallied.acceptCall (h : Tallied s) (hgoing : s.stopped = none) :
    Tallied (Core.acceptCall l root c s) := by
  have hcalm : s.Calm := calm_of_going hgoing
  have hstart : Tallied { s with policies := s.policies ++ [c.descriptor.persistence, c.persistence] } :=
    h.of_same rfl rfl rfl fun _ => hcalm
  unfold Core.acceptCall
  dsimp only
  split
  · exact tallied_of_raised not_calm_raised
  · split
    · unfold acceptEffectful
      split
      · exact hstart.replay hcalm
      · exact hstart.dispatch hgoing
    · unfold acceptRead
      split
      · exact hstart.of_same rfl rfl rfl fun _ => hcalm
      · refine Tallied.dispatch ?_ hgoing
        exact hstart.of_same rfl rfl rfl fun _ => hcalm

theorem Tallied.turn (h : Tallied s) (t : Turn) : Tallied (Core.turn l root s t) := by
  unfold Core.turn
  split
  · exact h
  · next hrunning =>
    have hgoing : s.stopped = none := by simpa using hrunning
    have hcalm : s.Calm := calm_of_going hgoing
    split
    · exact h.of_same rfl rfl rfl fun _ => hcalm
    · cases t with
      | deadline => exact h.of_same rfl rfl rfl fun _ => hcalm
      | answer m =>
        have hstart : Tallied { s with steps := s.steps + 1 } :=
          h.of_same rfl rfl rfl fun _ => hcalm
        cases m with
        | call c => exact hstart.acceptCall hgoing
        | _ => exact hstart.of_same rfl rfl rfl fun _ => hcalm

theorem run_tallied (steps failures : Nat) (ts : List Turn) :
    Tallied (runSteps l root steps failures ts) := by
  exact run_invariant (fun s t h => h.turn t) ⟨fun _ => rfl, fun _ => rfl⟩ ts

end Tallies

section Distinct

variable [PythonText] {l : LoopLimits} {root : Str} {s : LoopState}

/-- No two committed calls of a run have one key. -/
def Distinct (s : LoopState) : Prop :=
  ((s.calls.filter CallRecord.committedEffect).map CallRecord.key?).Nodup

theorem turn_distinct (hledger : Ledger s) (h : Distinct s) (t : Turn) :
    Distinct (turn l root s t) := by
  have hcase : TurnCase s (turn l root s t) := turn_case s t
  unfold Distinct at h ⊢
  cases hcase with
  | other hcalls haccepted hstopped => rwa [hcalls]
  | replay r key o hgoing hkey hknown hanswer hcalls haccepted =>
    have hnew : r.committedEffect = false := by
      rw [CallRecord.committedEffect, CallRecord.committed, hanswer]
      exact Bool.and_false _
    rw [hcalls, List.filter_append, List.filter_singleton, hnew]
    simpa using h
  | dispatch r key hgoing hkey hnew hanswer hcalls haccepted =>
    rw [hcalls, List.filter_append, List.filter_singleton]
    cases hcommitted : r.committedEffect with
    | false => simpa using h
    | true =>
      rw [cond_true, List.map_append, List.map_singleton]
      refine List.Nodup.append h (List.nodup_singleton _) ?_
      rw [List.disjoint_singleton]
      intro hmem
      obtain ⟨old, hold, hsame⟩ := List.mem_map.1 hmem
      obtain ⟨hcall, hfilter⟩ := List.mem_filter.1 hold
      rw [CallRecord.committedEffect, Bool.and_eq_true] at hfilter hcommitted
      obtain ⟨o, ho, heffect⟩ := CallRecord.committed_iff.1 hfilter.2
      obtain ⟨key', hkey', hknown⟩ := hledger.kept old hcall hfilter.1 o ho heffect hgoing
      rw [hsame, hkey, Except.ok.injEq] at hkey'
      rw [← hkey', hnew hcommitted.1] at hknown
      cases hknown

theorem run_distinct (steps failures : Nat) (ts : List Turn) :
    Distinct (runSteps l root steps failures ts) := by
  have hstep : ∀ (s : LoopState) (t : Turn), Ledger s ∧ Distinct s →
      Ledger (turn l root s t) ∧ Distinct (turn l root s t) :=
    fun s t h => ⟨turn_ledger h.1 t, turn_distinct h.1 h.2 t⟩
  refine (run_invariant hstep ⟨⟨fun r hr => absurd hr (by simp), ?_⟩, ?_⟩ ts).2
  · rintro first later o ⟨a, b, d, hsplit, -⟩
    simp at hsplit
  · exact List.nodup_nil

theorem length_committedCalls (h : Distinct s) :
    s.committedCalls.length = s.calls.countP CallRecord.committedEffect := by
  rw [LoopState.committedCalls, List.dedup_eq_self.2 h, List.length_map, List.countP_eq_length_filter]

end Distinct

section Outcomes

variable [PythonText] {l : LoopLimits} {root : Str} {s : LoopState}

/-- The outcome counts the different calls that were dispatched and have committed. -/
def CountsCommitted (s : LoopState) : Prop :=
  ∀ n, s.reportedCount = some n → n = s.committedCalls.length

/-- A run that ends by a status of its last observation has neither replayed a committed effect
nor read something that claims one, and nothing was committed before a clarification or before a
dispatch that the shadow mode blocks. -/
def NothingBorrowed (s : LoopState) : Prop :=
  match s.stopped with
  | some (.tool _) => ∀ r ∈ s.calls, r.borrowed = false
  | some .clarified | some .shadowBlocked => ∀ r ∈ s.calls, r.committedEffect = false
  | some .responded | some .deadlineExceeded | some .contractChanged | some .identicalReadLimit
  | some .observationLimit | some .limit | some (.raised _) | none => True

omit [PythonText] in
/-- The committed observations are those of the committed calls and the borrowed ones. -/
theorem countP_observations (calls : List CallRecord) :
    (calls.filterMap CallRecord.observation?).countP (·.committedEffect) =
      calls.countP CallRecord.committedEffect + calls.countP CallRecord.borrowed := by
  induction calls with
  | nil => rfl
  | cons r calls ih =>
    have hone : (r.observation?.toList).countP (·.committedEffect) =
        [r].countP CallRecord.committedEffect + [r].countP CallRecord.borrowed := by
      rcases hanswer : r.answer with (_ | o) | o
      · simp [CallRecord.observation?, CallRecord.committedEffect, CallRecord.committed,
          CallRecord.borrowed, hanswer]
      · cases heffect : r.effectful <;> cases hcommit : o.committedEffect <;>
          simp [CallRecord.observation?, CallRecord.committedEffect, CallRecord.committed,
            CallRecord.borrowed, hanswer, heffect, hcommit]
      · cases hcommit : o.committedEffect <;>
          simp [CallRecord.observation?, CallRecord.committedEffect, CallRecord.committed,
            CallRecord.borrowed, hanswer, hcommit]
    have hsplit : (r :: calls).filterMap CallRecord.observation? =
        r.observation?.toList ++ calls.filterMap CallRecord.observation? := by
      cases h : r.observation? <;> simp [h]
    rw [hsplit, List.countP_append, hone, ih, ← List.singleton_append (l := calls),
      List.countP_append, List.countP_append]
    omega

omit [PythonText] in
theorem countP_eq_zero_iff {p : CallRecord → Bool} {calls : List CallRecord} :
    calls.countP p = 0 ↔ ∀ r ∈ calls, p r = false := by
  rw [List.countP_eq_zero]
  simp only [Bool.not_eq_true]

theorem countsCommitted_iff_of_reported {n : Nat} (h : s.reportedCount = some n) :
    CountsCommitted s ↔ n = s.committedCalls.length := by
  unfold CountsCommitted
  rw [h]
  constructor
  · intro hall
    exact hall n rfl
  · rintro hsame m ⟨⟩
    exact hsame

theorem countsCommitted_iff_of_tallied (htallied : Tallied s) (hdistinct : Distinct s) :
    CountsCommitted s ↔ NothingBorrowed s := by
  have hlength := length_committedCalls hdistinct
  have hplain : s.Calm → s.reportedCount = some s.committedEffectCount → CountsCommitted s := by
    intro hcalm hreported
    rw [countsCommitted_iff_of_reported hreported, hlength]
    exact htallied.counted hcalm
  have hcalm : ∀ stop, s.stopped = some stop → (∀ e, stop ≠ .raised e) → s.Calm := by
    intro stop hstop hne e he
    exact hne e (Option.some.inj (hstop.symm.trans he))
  have hzero : s.reportedCount = some 0 →
      (CountsCommitted s ↔ ∀ r ∈ s.calls, r.committedEffect = false) := by
    intro hreported
    rw [countsCommitted_iff_of_reported hreported, hlength, eq_comm, countP_eq_zero_iff]
  unfold NothingBorrowed
  split
  · next status hstop =>
    have hobserved := htallied.observed (hcalm _ hstop nofun)
    have hreported : s.reportedCount = some (s.calls.countP CallRecord.committedEffect +
        s.calls.countP CallRecord.borrowed) := by
      rw [LoopState.reportedCount, hstop]
      simp only [hobserved, countP_observations]
    rw [countsCommitted_iff_of_reported hreported, hlength, Nat.add_eq_left, countP_eq_zero_iff]
  · next hstop => exact hzero (by rw [LoopState.reportedCount, hstop])
  · next hstop => exact hzero (by rw [LoopState.reportedCount, hstop])
  · next hstop =>
    exact iff_of_true (hplain (hcalm _ hstop nofun) (by rw [LoopState.reportedCount, hstop])) trivial
  · next hstop =>
    exact iff_of_true (hplain (hcalm _ hstop nofun) (by rw [LoopState.reportedCount, hstop])) trivial
  · next hstop =>
    exact iff_of_true (hplain (hcalm _ hstop nofun) (by rw [LoopState.reportedCount, hstop])) trivial
  · next hstop =>
    exact iff_of_true (hplain (hcalm _ hstop nofun) (by rw [LoopState.reportedCount, hstop])) trivial
  · next hstop =>
    exact iff_of_true (hplain (hcalm _ hstop nofun) (by rw [LoopState.reportedCount, hstop])) trivial
  · next hstop =>
    exact iff_of_true (hplain (hcalm _ hstop nofun) (by rw [LoopState.reportedCount, hstop])) trivial
  · next e hstop =>
    refine iff_of_true (fun n hn => ?_) trivial
    rw [LoopState.reportedCount, hstop] at hn
    cases hn
  · next hstop =>
    refine iff_of_true (fun n hn => ?_) trivial
    rw [LoopState.reportedCount, hstop] at hn
    cases hn

/-- However a run ends, its outcome counts the different calls that were dispatched and have
committed exactly if nothing was borrowed. -/
theorem countsCommitted_iff_nothingBorrowed (l : LoopLimits) (rootRequestId : Str)
    (steps failures : Nat) (ts : List Turn) :
    CountsCommitted (runSteps l rootRequestId steps failures ts) ↔
      NothingBorrowed (runSteps l rootRequestId steps failures ts) :=
  countsCommitted_iff_of_tallied (run_tallied steps failures ts) (run_distinct steps failures ts)

end Outcomes

section Sample

/-- A call that is put into a queue. -/
def archiveLater (refs : List Str) : Turn :=
  .answer (.call ⟨archiveTool, [("message_refs", texts refs)], .redacted, fun operationId =>
    .ok (some { archived operationId with status := .queued, committedEffect := false })⟩)

/-- One message is archived, once more under the same arguments, and another is queued: the
outcome counts two effects. -/
theorem replayed_effect_counted_twice : ¬ ∀ (l : LoopLimits) (rootRequestId : Str)
    (steps failures : Nat) (ts : List Turn),
    @CountsCommitted asciiText (@runSteps asciiText l rootRequestId steps failures ts) := by
  intro h
  have hcounts := h {} "request1" 1 0 [archive ["E1"], archive ["E1"], archiveLater ["E2"]]
  have hreported : (@runSteps asciiText {} "request1" 1 0
      [archive ["E1"], archive ["E1"], archiveLater ["E2"]]).reportedCount = some 2 := by
    decide +kernel
  have hcommitted : (@LoopState.committedCalls asciiText (@runSteps asciiText {} "request1" 1 0
      [archive ["E1"], archive ["E1"], archiveLater ["E2"]])).length = 1 := by decide +kernel
  have hsame := hcounts 2 hreported
  rw [hcommitted] at hsame
  cases hsame

end Sample

end HardyAI.Core
