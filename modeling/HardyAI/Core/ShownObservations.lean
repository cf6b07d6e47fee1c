import HardyAI.Core.EffectReplay

/-! How much of its observations a run of the tool loop shows to the model. -/

open Foundation Foundation.Json Foundation.Trace HardyAI.Skills

namespace HardyAI.Core

section Sizes

variable [PythonText]

/-- What the model is shown of an observation, in characters. -/
def ToolObservation.chars (o : ToolObservation) : Except PyError Nat :=
  (canonicalJson o.toModelDict).map List.length

/-- The same as a number, for an observation that can be written. -/
def ToolObservation.size (o : ToolObservation) : Nat := o.chars.toOption.getD 0

/-- What a replayed answer shows of its observation again. -/
def CallRecord.replayedSize (r : CallRecord) : Nat :=
  match r.answer with
  | .replayed o => o.size
  | .dispatched _ => 0

def LoopState.replayedChars (s : LoopState) : Nat := (s.calls.map CallRecord.replayedSize).sum

/-- The model is asked for the next step. -/
def Asked (l : LoopLimits) (s : LoopState) (t : Turn) : Prop :=
  s.stopped = none ∧ s.steps < l.maxSteps ∧ s.failures < l.maxFailures ∧ ∃ m, t = .answer m

/-- The observations can be written, in no more characters than the limit. -/
def ShownWithin (l : LoopLimits) (s : LoopState) : Prop :=
  ∃ sizes : List Nat, s.observations.map ToolObservation.chars = sizes.map .ok ∧
    sizes.sum ≤ l.maxTotalObservationChars

end Sizes

section Measures

variable [PythonText] {l : LoopLimits} {root : Str} {s : LoopState} {c : CallStep} {key : CallKey}
  {o : ToolObservation}

/-- What is shown of the observations is what has been counted and what has been replayed, and a
run that goes on has counted no more than its limit. -/
structure Measured (l : LoopLimits) (s : LoopState) : Prop where
  written : ∀ o ∈ s.observations, o.chars = .ok o.size
  accepted : ∀ p ∈ s.acceptedEffectful, p.2.chars = .ok p.2.size
  total : (s.observations.map ToolObservation.size).sum =
    s.totalObservationChars + s.replayedChars
  within : s.stopped = none → s.totalObservationChars ≤ l.maxTotalObservationChars

theorem ToolObservation.size_of_chars {n : Nat} (h : o.chars = .ok n) : o.size = n := by
  rw [size, h]
  rfl

theorem replayedChars_record (answer : Answer) : (record c answer s).replayedChars =
    s.replayedChars + CallRecord.replayedSize ⟨c.descriptor, c.arguments, answer⟩ := by
  simp only [LoopState.replayedChars, record, List.map_append, List.sum_append, List.map_cons,
    List.map_nil, List.sum_singleton]

/-- Nothing is measured where the observations, the calls and the counter stay. -/
theorem Measured.of_same {s' : LoopState} (h : Measured l s)
    (hobservations : s'.observations = s.observations)
    (haccepted : s'.acceptedEffectful = s.acceptedEffectful)
    (htotal : s'.totalObservationChars = s.totalObservationChars)
    (hreplayed : s'.replayedChars = s.replayedChars) (hgoing : s'.stopped = none → s.stopped = none) :
    Measured l s' where
  written o ho := h.written o (hobservations ▸ ho)
  accepted p hp := h.accepted p (haccepted ▸ hp)
  total := by
    rw [hobservations, htotal, hreplayed]
    exact h.total
  within hs := by
    rw [htotal]
    exact h.within (hgoing hs)

/-- A call that is dispatched replays nothing. -/
theorem Measured.record (h : Measured l s) (observation : Option ToolObservation) :
    Measured l (Core.record c (.dispatched observation) s) :=
  h.of_same rfl rfl rfl ((replayedChars_record _).trans (Nat.add_zero _)) id

omit [PythonText] in
/-- What the limits and the status of an observation leave alone. -/
theorem afterObservation_keeps (chars : Nat) :
    (afterObservation l c o chars s).observations = s.observations ∧
      (afterObservation l c o chars s).acceptedEffectful = s.acceptedEffectful ∧
      (afterObservation l c o chars s).totalObservationChars = s.totalObservationChars ∧
      (afterObservation l c o chars s).calls = s.calls := by
  unfold afterObservation
  split
  · exact ⟨rfl, rfl, rfl, rfl⟩
  · cases o.status <;> exact ⟨rfl, rfl, rfl, rfl⟩

omit [PythonText] in
/-- An observation that does not stop the run has been found within the limit. -/
theorem afterObservation_going {chars : Nat}
    (h : (afterObservation l c o chars s).stopped = none) :
    s.totalObservationChars ≤ l.maxTotalObservationChars := by
  unfold afterObservation at h
  split at h
  · cases h
  · next hlimits =>
    rw [not_or, Nat.not_lt] at hlimits
    exact hlimits.2

theorem Measured.observe {n : Nat} (h : Measured l s) (hchars : o.chars = .ok n) :
    Measured l (afterObservation l c o n (Core.observe c key o n s)) := by
  have hsize := ToolObservation.size_of_chars hchars
  have hwritten : o.chars = .ok o.size := hsize.symm ▸ hchars
  obtain ⟨hobservations, haccepted, htotal, hcalls⟩ :=
    @afterObservation_keeps l (Core.observe c key o n s) c o n
  refine ⟨fun o' ho' => ?_, fun p hp => ?_, ?_, fun hgoing => ?_⟩
  · rw [hobservations] at ho'
    rcases List.mem_append.1 ho' with hold | hnew
    · exact h.written o' hold
    · rw [List.mem_singleton.1 hnew]
      exact hwritten
  · rw [haccepted] at hp
    simp only [Core.observe] at hp
    split at hp
    · rcases List.mem_append.1 hp with hold | hnew
      · exact h.accepted p hold
      · rw [List.mem_singleton.1 hnew]
        exact hwritten
    · exact h.accepted p hp
  · have hbefore := h.total
    rw [LoopState.replayedChars] at hbefore ⊢
    rw [hobservations, htotal, hcalls]
    simp only [Core.observe, List.map_append, List.sum_append, List.map_cons, List.map_nil,
      List.sum_singleton]
    omega
  · rw [htotal]
    exact afterObservation_going hgoing

/-- A replayed answer is shown once more, and is not counted. -/
theorem Measured.replay (h : Measured l s) (hknown : s.accepted? key = some o) :
    Measured l { Core.record c (.replayed o) s with observations := s.observations ++ [o] } := by
  obtain ⟨p, hp, rfl⟩ := Option.map_eq_some_iff.1 hknown
  have hwritten := h.accepted p (List.mem_of_find?_eq_some hp)
  refine ⟨fun o' ho' => ?_, h.accepted, ?_, h.within⟩
  · rcases List.mem_append.1 ho' with hold | hnew
    · exact h.written o' hold
    · rw [List.mem_singleton.1 hnew]
      exact hwritten
  · have hbefore := h.total
    have hrecord := @replayedChars_record _ s c (.replayed p.2)
    simp only [LoopState.replayedChars, CallRecord.replayedSize] at hbefore hrecord ⊢
    rw [List.map_append, List.sum_append, List.map_singleton, List.sum_singleton, hrecord, hbefore]
    exact Nat.add_assoc ..

theorem Measured.dispatch (h : Measured l s) : Measured l (Core.dispatch l root c key s) := by
  have hstart : Measured l { s with callOrdinal := s.callOrdinal + 1 } :=
    h.of_same rfl rfl rfl rfl id
  unfold Core.dispatch
  dsimp only
  split
  · exact (hstart.record none).of_same rfl rfl rfl rfl nofun
  · exact (hstart.record none).of_same rfl rfl rfl rfl nofun
  · next o _ =>
    split
    · exact (hstart.record (some o)).of_same rfl rfl rfl rfl nofun
    · next projection hprojection =>
      refine (hstart.record (some o)).observe ?_
      rw [ToolObservation.chars, hprojection]
      rfl

theorem Measured.acceptCall (h : Measured l s) : Measured l (Core.acceptCall l root c s) := by
  have hstart : Measured l
      { s with policies := s.policies ++ [c.descriptor.persistence, c.persistence] } :=
    h.of_same rfl rfl rfl rfl id
  unfold Core.acceptCall
  dsimp only
  split
  · exact hstart.of_same rfl rfl rfl rfl nofun
  · split
    · unfold acceptEffectful
      split
      · next o hknown => exact hstart.replay hknown
      · exact hstart.dispatch
    · unfold acceptRead
      split
      · exact hstart.of_same rfl rfl rfl rfl nofun
      · exact Measured.dispatch (hstart.of_same rfl rfl rfl rfl id)

theorem Measured.turn (h : Measured l s) (t : Turn) : Measured l (Core.turn l root s t) := by
  unfold Core.turn
  split
  · exact h
  · split
    · exact h.of_same rfl rfl rfl rfl nofun
    · cases t with
      | deadline => exact h.of_same rfl rfl rfl rfl nofun
      | answer m =>
        have hstart : Measured l { s with steps := s.steps + 1 } := h.of_same rfl rfl rfl rfl id
        cases m with
        | call c => exact hstart.acceptCall
        | invalid | rejected => exact hstart.of_same rfl rfl rfl rfl id
        | respond | contractChanged | clarify => exact hstart.of_same rfl rfl rfl rfl nofun

theorem run_measured (steps failures : Nat) (ts : List Turn) :
    Measured l (runSteps l root steps failures ts) := by
  have hstep : ∀ (s : LoopState) (t : Turn), Measured l s → Measured l (Core.turn l root s t) :=
    fun s t h => h.turn t
  have hempty : Measured l { steps, failures } := ⟨nofun, nofun, rfl, fun _ => Nat.zero_le _⟩
  exact run_invariant hstep hempty ts

/-- What is shown of written observations is the sum of their sizes. -/
theorem shownWithin_iff (h : Measured l s) : ShownWithin l s ↔
    s.totalObservationChars + s.replayedChars ≤ l.maxTotalObservationChars := by
  have hwritten : s.observations.map ToolObservation.chars =
      (s.observations.map ToolObservation.size).map .ok := by
    rw [List.map_map]
    exact List.map_congr_left h.written
  rw [← h.total]
  constructor
  · rintro ⟨sizes, hsizes, hsum⟩
    rw [hwritten] at hsizes
    have hsame : s.observations.map ToolObservation.size = sizes :=
      List.map_injective_iff.2 (fun _ _ => Except.ok.inj) hsizes
    rwa [hsame]
  · exact fun hsum => ⟨_, hwritten, hsum⟩

end Measures

/-- Whenever the model is asked for a step, it is shown no more than the limit exactly if the
answers replayed so far show no more than what the counted observations leave of it; a run that
has replayed nothing never shows more. -/
theorem shownWithin_iff_replayedChars [PythonText] (l : LoopLimits) (rootRequestId : Str)
    (steps failures : Nat) (before : List Turn) (t : Turn)
    (hasked : Asked l (runSteps l rootRequestId steps failures before) t) :
    (ShownWithin l (runSteps l rootRequestId steps failures before) ↔
      (runSteps l rootRequestId steps failures before).replayedChars ≤
        l.maxTotalObservationChars -
          (runSteps l rootRequestId steps failures before).totalObservationChars) ∧
    ((∀ r ∈ (runSteps l rootRequestId steps failures before).calls, ∀ o, r.answer ≠ .replayed o) →
      ShownWithin l (runSteps l rootRequestId steps failures before)) := by
  have hmeasured := @run_measured _ l rootRequestId steps failures before
  have hwithin := hmeasured.within hasked.1
  rw [shownWithin_iff hmeasured]
  refine ⟨by omega, fun hnone => ?_⟩
  have hzero : (runSteps l rootRequestId steps failures before).replayedChars = 0 := by
    rw [LoopState.replayedChars, List.sum_eq_zero_iff_forall_eq_nat]
    intro n hn
    obtain ⟨r, hr, rfl⟩ := List.mem_map.1 hn
    cases hanswer : r.answer with
    | dispatched observation => rw [CallRecord.replayedSize, hanswer]
    | replayed o => exact absurd hanswer (hnone r hr o)
  omega

section Sample

def smallLimits : LoopLimits := { maxTotalObservationChars := 400 }

theorem shownWithin_iff_replayedChars_archive :
    @ShownWithin asciiText smallLimits (@runSteps asciiText smallLimits "request1" 1 0
      [archive ["E1"]]) := by
  have hasked : (@runSteps asciiText smallLimits "request1" 1 0 [archive ["E1"]]).stopped = none ∧
      (@runSteps asciiText smallLimits "request1" 1 0 [archive ["E1"]]).steps < 8 ∧
      (@runSteps asciiText smallLimits "request1" 1 0 [archive ["E1"]]).failures < 2 := by
    decide +kernel
  have hnone : (@runSteps asciiText smallLimits "request1" 1 0 [archive ["E1"]]).calls.all
      (fun r => r.committed) = true := by decide +kernel
  refine (@shownWithin_iff_replayedChars asciiText smallLimits "request1" 1 0 [archive ["E1"]]
    (.answer .respond) ⟨hasked.1, hasked.2.1, hasked.2.2, _, rfl⟩).2 fun r hr o hreplayed => ?_
  have hcommitted := List.all_eq_true.1 hnone r hr
  rw [CallRecord.committed, hreplayed] at hcommitted
  cases hcommitted

/-- One message is archived twice: at the third step the model is shown both observations, which
together are longer than the limit. -/
theorem replayed_observation_exceeds_limit : ¬ ∀ (l : LoopLimits) (rootRequestId : Str)
    (steps failures : Nat) (before : List Turn) (t : Turn),
    Asked l (@runSteps asciiText l rootRequestId steps failures before) t →
    @ShownWithin asciiText l (@runSteps asciiText l rootRequestId steps failures before) := by
  intro h
  have hasked : (@runSteps asciiText smallLimits "request1" 1 0
        [archive ["E1"], archive ["E1"]]).stopped = none ∧
      (@runSteps asciiText smallLimits "request1" 1 0
        [archive ["E1"], archive ["E1"]]).steps < 8 ∧
      (@runSteps asciiText smallLimits "request1" 1 0
        [archive ["E1"], archive ["E1"]]).failures < 2 := by decide +kernel
  have hshown : (@runSteps asciiText smallLimits "request1" 1 0
      [archive ["E1"], archive ["E1"]]).observations.map (@ToolObservation.chars asciiText) =
        [208, 208].map .ok := by decide +kernel
  obtain ⟨sizes, hsizes, hsum⟩ := h smallLimits "request1" 1 0 [archive ["E1"], archive ["E1"]]
    (.answer .respond) ⟨hasked.1, hasked.2.1, hasked.2.2, _, rfl⟩
  have hsame : [208, 208] = sizes :=
    List.map_injective_iff.2 (fun _ _ => Except.ok.inj) (hshown.symm.trans hsizes)
  rw [← hsame] at hsum
  exact absurd hsum (by decide)

end Sample

end HardyAI.Core
