import HardyAI.Core.MainToolLoop

/-! Repeated effectful calls of one run of the tool loop: what was committed once is answered
again by its observation. -/

open Foundation Foundation.Json Foundation.Trace HardyAI.Skills

namespace HardyAI.Core

section Repetition

variable [PythonText]

/-- The calls agree in tool, version and the arguments that make their identity. -/
def SameIdentity (first later : CallRecord) : Prop :=
  first.descriptor.toolId = later.descriptor.toolId ∧
    first.descriptor.contractVersion = later.descriptor.contractVersion ∧
    ∃ a b canonical, normalizeIdentityArguments first.descriptor.toolId first.arguments = .ok a ∧
      normalizeIdentityArguments later.descriptor.toolId later.arguments = .ok b ∧
      canonicalJson (.obj a) = .ok canonical ∧ canonicalJson (.obj b) = .ok canonical

/-- An effectful call whose identity is that of an earlier one of the run, which has committed. -/
def Repeats (calls : List CallRecord) (first later : CallRecord) (o : ToolObservation) : Prop :=
  ∃ a b c, calls = a ++ first :: b ++ later :: c ∧ first.effectful = true ∧
    later.effectful = true ∧ first.answer = .dispatched (some o) ∧ o.committedEffect = true ∧
    SameIdentity first later

/-- The checked arguments of the calls have one canonical text. -/
def SameText (first later : CallRecord) : Prop :=
  canonicalJson (.obj first.arguments) = canonicalJson (.obj later.arguments)

/-- Only the tools with unordered targets tell identity and text apart. -/
theorem sameText_of_sameIdentity {first later : CallRecord}
    (htool : PythonText.casefold (strip first.descriptor.toolId) ∉ emailUnorderedTargetTools)
    (h : SameIdentity first later) : SameText first later := by
  obtain ⟨hsame, -, a, b, canonical, ha, hb, hca, hcb⟩ := h
  obtain rfl := normalizeIdentityArguments_eq htool ha
  obtain rfl := normalizeIdentityArguments_eq (hsame ▸ htool) hb
  exact hca.trans hcb.symm

end Repetition

section Accepted

variable [PythonText] {l : LoopLimits} {root : Str} {s : LoopState} {c : CallStep}
  {key : CallKey}

/-- The key under which the observation of a call is kept. -/
def CallRecord.key? (r : CallRecord) : Except PyError CallKey :=
  (sha256 (.obj r.arguments)).map fun h => ⟨r.descriptor.toolId, r.descriptor.contractVersion, h⟩

theorem key?_of_sameText {first later : CallRecord}
    (htool : first.descriptor.toolId = later.descriptor.toolId)
    (hversion : first.descriptor.contractVersion = later.descriptor.contractVersion)
    (h : SameText first later) : first.key? = later.key? := by
  have hhash : sha256 (.obj first.arguments) = sha256 (.obj later.arguments) := by
    rw [sha256, sha256]
    exact congrArg (· >>= _) h
  rw [CallRecord.key?, CallRecord.key?, hhash, htool, hversion]

/-- What a turn does to the calls of the run and to the accepted observations. -/
inductive TurnCase (s s' : LoopState) : Prop
  | other (hcalls : s'.calls = s.calls) (haccepted : s'.acceptedEffectful = s.acceptedEffectful)
      (hstopped : s'.stopped = none → s.stopped = none)
  | replay (r : CallRecord) (key : CallKey) (o : ToolObservation) (hgoing : s.stopped = none)
      (hkey : r.key? = .ok key) (hknown : s.accepted? key = some o) (hanswer : r.answer = .replayed o)
      (hcalls : s'.calls = s.calls ++ [r]) (haccepted : s'.acceptedEffectful = s.acceptedEffectful)
  | dispatch (r : CallRecord) (key : CallKey) (hgoing : s.stopped = none) (hkey : r.key? = .ok key)
      (hnew : r.effectful = true → s.accepted? key = none)
      (hanswer : ∀ o, r.answer ≠ .replayed o) (hcalls : s'.calls = s.calls ++ [r])
      (haccepted : s'.stopped = none → ∃ added, s'.acceptedEffectful = s.acceptedEffectful ++ added ∧
        ∀ o, r.answer = .dispatched (some o) → r.effectful = true → o.committedEffect = true →
          added = [(key, o)])

theorem TurnCase.of_same {s₀ s' : LoopState} (h : TurnCase s s') (hcalls : s.calls = s₀.calls)
    (haccepted : s.acceptedEffectful = s₀.acceptedEffectful) (hstopped : s.stopped = s₀.stopped) :
    TurnCase s₀ s' := by
  have hlookup : ∀ key, s.accepted? key = s₀.accepted? key := by
    intro key
    rw [LoopState.accepted?, LoopState.accepted?, haccepted]
  cases h with
  | other hc ha hs =>
    exact .other (hc.trans hcalls) (ha.trans haccepted) fun h => hstopped ▸ hs h
  | replay r key o hgoing hkey hknown hanswer hc ha =>
    exact .replay r key o (hstopped ▸ hgoing) hkey (hlookup key ▸ hknown) hanswer (hcalls ▸ hc)
      (ha.trans haccepted)
  | dispatch r key hgoing hkey hnew hanswer hc ha =>
    exact .dispatch r key (hstopped ▸ hgoing) hkey (fun h => hlookup key ▸ hnew h) hanswer
      (hcalls ▸ hc) (haccepted ▸ ha)

omit [PythonText] in
theorem afterObservation_frame (o : ToolObservation) (chars : Nat) :
    (afterObservation l c o chars s).calls = s.calls ∧
      (afterObservation l c o chars s).acceptedEffectful = s.acceptedEffectful := by
  unfold afterObservation
  split
  · exact ⟨rfl, rfl⟩
  · cases o.status <;> exact ⟨rfl, rfl⟩

theorem dispatch_case (hgoing : s.stopped = none)
    (hkey : (⟨c.descriptor, c.arguments, .dispatched none⟩ : CallRecord).key? = .ok key)
    (hnew : c.descriptor.effect ≠ .read → s.accepted? key = none) :
    TurnCase s (dispatch l root c key s) := by
  have hfresh : ∀ o, (⟨c.descriptor, c.arguments, .dispatched o⟩ : CallRecord).effectful = true →
      s.accepted? key = none := fun o h => hnew (by simpa [CallRecord.effectful] using h)
  unfold dispatch
  dsimp only
  split
  · exact .dispatch ⟨c.descriptor, c.arguments, .dispatched none⟩ key hgoing hkey (hfresh none)
      nofun rfl nofun
  · exact .dispatch ⟨c.descriptor, c.arguments, .dispatched none⟩ key hgoing hkey (hfresh none)
      nofun rfl nofun
  · next o _ =>
    split
    · exact .dispatch ⟨c.descriptor, c.arguments, .dispatched (some o)⟩ key hgoing hkey
        (hfresh (some o)) nofun rfl nofun
    · next projection _ =>
      refine .dispatch ⟨c.descriptor, c.arguments, .dispatched (some o)⟩ key hgoing hkey
        (hfresh (some o)) nofun ?_ fun _ => ?_
      · rw [(afterObservation_frame o projection.length).1]
        rfl
      · rw [(afterObservation_frame o projection.length).2]
        by_cases hadds : c.descriptor.effect ≠ .read ∧ (o.committedEffect = true ∨ o.status = .ok)
        · refine ⟨[(key, o)], by simp only [observe, if_pos hadds]; rfl, fun o' ho' _ _ => ?_⟩
          obtain rfl : o = o' := by simpa using ho'
          rfl
        · refine ⟨[], by simp only [observe, if_neg hadds]; simp [record], fun o' ho' heff hcommit => ?_⟩
          obtain rfl : o = o' := by simpa using ho'
          exact absurd ⟨by simpa [CallRecord.effectful] using heff, .inl hcommit⟩ hadds

theorem acceptCall_case (hgoing : s.stopped = none) : TurnCase s (acceptCall l root c s) := by
  unfold acceptCall
  dsimp only
  split
  · exact .other rfl rfl fun _ => hgoing
  · next argumentsHash hhash =>
    have hkey : ∀ answer, (⟨c.descriptor, c.arguments, answer⟩ : CallRecord).key? =
        .ok ⟨c.descriptor.toolId, c.descriptor.contractVersion, argumentsHash⟩ := by
      intro answer
      rw [CallRecord.key?, hhash]
      rfl
    split
    · next heffect =>
      unfold acceptEffectful
      split
      · next o hknown =>
        exact .replay ⟨c.descriptor, c.arguments, .replayed o⟩ _ o hgoing (hkey _) hknown rfl rfl rfl
      · next hnone =>
        exact (dispatch_case (by exact hgoing) (hkey _) fun _ => hnone).of_same rfl rfl rfl
    · next hread =>
      unfold acceptRead
      split
      · exact .other rfl rfl fun _ => hgoing
      · exact (dispatch_case (by exact hgoing) (hkey _) fun h => absurd h hread).of_same rfl rfl rfl

theorem turn_case (s : LoopState) (t : Turn) : TurnCase s (turn l root s t) := by
  unfold turn
  split
  · exact .other rfl rfl id
  · next hrunning =>
    have hgoing : s.stopped = none := by simpa using hrunning
    split
    · exact .other rfl rfl fun _ => hgoing
    · cases t with
      | deadline => exact .other rfl rfl fun _ => hgoing
      | answer m =>
        cases m with
        | call c => exact (acceptCall_case (by exact hgoing)).of_same rfl rfl rfl
        | _ => exact .other rfl rfl fun _ => hgoing

/-- Committed observations are kept under the keys of their calls, and a replayed answer is the
one that was kept. -/
structure Ledger (s : LoopState) : Prop where
  kept : ∀ r ∈ s.calls, r.effectful = true → ∀ o, r.answer = .dispatched (some o) →
    o.committedEffect = true → s.stopped = none → ∃ key, r.key? = .ok key ∧ s.accepted? key = some o
  replayed : ∀ first later o, Repeats s.calls first later o → SameText first later →
    later.answer = .replayed o

/-- A repetition in an extended run is an old one, or the new call repeats an old one. -/
theorem repeats_concat {calls : List CallRecord} {r first later : CallRecord} {o : ToolObservation}
    (h : Repeats (calls ++ [r]) first later o) : Repeats calls first later o ∨
      later = r ∧ first ∈ calls ∧ first.effectful = true ∧ later.effectful = true ∧
        first.answer = .dispatched (some o) ∧ o.committedEffect = true ∧ SameIdentity first later := by
  obtain ⟨a, b, d, hsplit, hfirst, hlater, hanswer, hcommit, hsame⟩ := h
  obtain ⟨rfl, rfl, hfront⟩ | ⟨d', rfl, hcalls⟩ := concat_eq_append_cons hsplit
  · exact .inr ⟨rfl, by simp [← hfront], hfirst, hlater, hanswer, hcommit, hsame⟩
  · exact .inl ⟨a, b, d', hcalls, hfirst, hlater, hanswer, hcommit, hsame⟩

/-- The observation of a committed call is found under the key of every repetition. -/
theorem Ledger.found (h : Ledger s) {first later : CallRecord} {o : ToolObservation}
    (hgoing : s.stopped = none) (hmem : first ∈ s.calls) (heff : first.effectful = true)
    (hanswer : first.answer = .dispatched (some o)) (hcommit : o.committedEffect = true)
    (hsame : SameIdentity first later) (htext : SameText first later)
    (hkey : later.key? = .ok key) : s.accepted? key = some o := by
  obtain ⟨key', hkey', hknown⟩ := h.kept first hmem heff o hanswer hcommit hgoing
  rw [key?_of_sameText hsame.1 hsame.2.1 htext, hkey] at hkey'
  obtain rfl := Except.ok.inj hkey'
  exact hknown

theorem turn_ledger (h : Ledger s) (t : Turn) : Ledger (turn l root s t) := by
  have hcase : TurnCase s (turn l root s t) := turn_case s t
  cases hcase with
  | other hcalls haccepted hstopped =>
    refine ⟨fun r hr heff o ho hcommit hgoing => ?_, ?_⟩
    · rw [hcalls] at hr
      obtain ⟨key, hkey, hknown⟩ := h.kept r hr heff o ho hcommit (hstopped hgoing)
      exact ⟨key, hkey, by rw [LoopState.accepted?, haccepted]; exact hknown⟩
    · rw [hcalls]
      exact h.replayed
  | replay r key o hgoing hkey hknown hanswer hcalls haccepted =>
    refine ⟨fun r' hr' heff o' ho' hcommit _ => ?_, fun first later o' hrepeats htext => ?_⟩
    · rw [hcalls] at hr'
      rcases List.mem_append.1 hr' with hold | hnew
      · obtain ⟨key', hkey', hknown'⟩ := h.kept r' hold heff o' ho' hcommit hgoing
        exact ⟨key', hkey', by rw [LoopState.accepted?, haccepted]; exact hknown'⟩
      · obtain rfl := List.mem_singleton.1 hnew
        rw [hanswer] at ho'
        exact absurd ho' nofun
    · rw [hcalls] at hrepeats
      obtain hold | ⟨rfl, hmem, heff, -, hfirst, hcommit, hsame⟩ := repeats_concat hrepeats
      · exact h.replayed first later o' hold htext
      · have hfound := h.found hgoing hmem heff hfirst hcommit hsame htext hkey
        obtain rfl : o = o' := Option.some.inj (hknown.symm.trans hfound)
        exact hanswer
  | dispatch r key hgoing hkey hnew hanswer hcalls haccepted =>
    refine ⟨fun r' hr' heff o' ho' hcommit hstill => ?_, fun first later o' hrepeats htext => ?_⟩
    · obtain ⟨added, hafter, hadded⟩ := haccepted hstill
      rw [hcalls] at hr'
      rcases List.mem_append.1 hr' with hold | hlast
      · obtain ⟨key', hkey', hknown⟩ := h.kept r' hold heff o' ho' hcommit hgoing
        obtain ⟨p, hfind, hp⟩ := Option.map_eq_some_iff.1 hknown
        refine ⟨key', hkey', ?_⟩
        rw [LoopState.accepted?, hafter, List.find?_append, hfind]
        exact congrArg some hp
      · obtain rfl := List.mem_singleton.1 hlast
        have hnone : s.acceptedEffectful.find? (fun p => p.1 = key) = none :=
          Option.map_eq_none_iff.1 (hnew heff)
        refine ⟨key, hkey, ?_⟩
        rw [LoopState.accepted?, hafter, hadded o' ho' heff hcommit, List.find?_append, hnone]
        simp
    · rw [hcalls] at hrepeats
      obtain hold | ⟨rfl, hmem, heff, heff', hfirst, hcommit, hsame⟩ := repeats_concat hrepeats
      · exact h.replayed first later o' hold htext
      · have hfound := h.found hgoing hmem heff hfirst hcommit hsame htext hkey
        rw [hnew heff'] at hfound
        exact absurd hfound nofun

theorem run_ledger (steps failures : Nat) (ts : List Turn) :
    Ledger (runSteps l root steps failures ts) := by
  have hstep : ∀ (s : LoopState) (t : Turn), Ledger s → Ledger (turn l root s t) :=
    fun s t h => turn_ledger h t
  refine run_invariant hstep ⟨fun r hr => absurd hr (by simp), ?_⟩ ts
  rintro first later o ⟨a, b, d, hsplit, -⟩
  simp at hsplit

end Accepted

section Replay

variable [PythonText]

/-- In every run, a call that repeats a committed one is answered by its observation wherever the
two agree in the text of their arguments, as they do for every tool whose targets are ordered. -/
theorem effect_replay (l : LoopLimits) (rootRequestId : Str) (steps failures : Nat)
    (ts : List Turn) (first later : CallRecord) (o : ToolObservation)
    (hrepeats : Repeats (runSteps l rootRequestId steps failures ts).calls first later o) :
    (SameText first later → later.answer = .replayed o) ∧
      (PythonText.casefold (strip first.descriptor.toolId) ∉ emailUnorderedTargetTools →
        later.answer = .replayed o) := by
  have hreplayed := (run_ledger steps failures ts).replayed first later o hrepeats
  refine ⟨hreplayed, fun htool => hreplayed ?_⟩
  obtain ⟨a, b, d, -, -, -, -, -, hsame⟩ := hrepeats
  exact sameText_of_sameIdentity htool hsame

end Replay

section Sample

def archiveTool : ToolDescriptor where
  toolId := "email.archive_messages"
  skillId := "skill.email.agent"
  contractVersion := 1
  purpose := "Archive messages."
  inputSchema := .obj []
  observationSchema := .obj []
  effect := .externalWrite
  approvalRule := .none
  approvalConditions := []
  sensitivity := .privateData
  persistence := .redacted
  idempotency := .required
  effectCardinality := .independentBatch
  transferableObservationFields := []
  runtimeDependencies := []
  timeoutSeconds := 30
  maxResultItems := 1
  maxObservationChars := 2000
  legacyIntents := []
  interactive := true
  toolId_valid := by decide
  skillId_valid := by decide
  contractVersion_valid := firstVersion_valid

def archived (operationId : Str) : ToolObservation where
  status := .ok
  observationRef := "obs"
  payload := []
  safeMessage := "Archived."
  missingFields := []
  retryable := false
  committedEffect := true
  receiptRefs := []
  reviewRefs := []
  jobRefs := []
  untrusted := false
  operationId := operationId

def archive (refs : List Str) : Turn :=
  .answer (.call ⟨archiveTool, [("message_refs", texts refs)], .redacted,
    fun operationId => .ok (some (archived operationId))⟩)

/-- Whether the call has committed by a dispatch of its own. -/
def CallRecord.committed (r : CallRecord) : Bool :=
  match r.answer with
  | .dispatched (some o) => o.committedEffect
  | .dispatched none | .replayed _ => false

theorem CallRecord.committed_iff {r : CallRecord} :
    r.committed = true ↔ ∃ o, r.answer = .dispatched (some o) ∧ o.committedEffect = true := by
  unfold committed
  split <;> simp_all

/-- A run of two calls with one identity, of which the first has committed. -/
theorem repeats_of_two [PythonText] {calls : List CallRecord} {first later : CallRecord}
    {normalized : List (Str × Json)} (hcalls : calls = [first, later])
    (hids : calls.map (fun r => (r.descriptor.toolId, r.descriptor.contractVersion, r.effectful)) =
      [(text "email.archive_messages", 1, true), (text "email.archive_messages", 1, true)])
    (hnormal : calls.map (fun r => normalizeIdentityArguments r.descriptor.toolId r.arguments) =
      [.ok normalized, .ok normalized])
    (hcanonical : (canonicalJson (.obj normalized)).isOk = true)
    (hcommitted : first.committed = true) : ∃ o, Repeats calls first later o := by
  subst hcalls
  simp only [List.map_cons, List.map_nil, List.cons.injEq, Prod.mk.injEq, and_true] at hids hnormal
  obtain ⟨⟨htool, hversion, heff⟩, htool', hversion', heff'⟩ := hids
  obtain ⟨o, hanswer, hcommit⟩ := CallRecord.committed_iff.1 hcommitted
  cases hrender : canonicalJson (.obj normalized) with
  | error e => simp [hrender, Except.isOk, Except.toBool] at hcanonical
  | ok canonical =>
    exact ⟨o, [], [], [], rfl, heff, heff', hanswer, hcommit, htool.trans htool'.symm,
      hversion.trans hversion'.symm, normalized, normalized, canonical, hnormal.1, hnormal.2,
      hrender, hrender⟩

def reorderedRun : List Turn := [archive ["E1", "E2"], archive ["E2", "E1"]]

/-- Two messages are archived twice, in one order and then in the other. -/
theorem dispatched_twice_reorderedRun : ∃ first later o,
    @Repeats asciiText (@runSteps asciiText {} "request1" 1 0 reorderedRun).calls first later o ∧
      later.answer ≠ .replayed o := by
  have hlength : (@runSteps asciiText {} "request1" 1 0 reorderedRun).calls.length = 2 := by
    decide +kernel
  have hcommitted : (@runSteps asciiText {} "request1" 1 0 reorderedRun).calls.all
      (·.committed) = true := by decide +kernel
  obtain ⟨first, later, hcalls⟩ := List.length_eq_two.1 hlength
  rw [hcalls] at hcommitted
  obtain ⟨o, hrepeats⟩ := @repeats_of_two asciiText _ first later
    [("message_refs", texts ["E1", "E2"])] hcalls (by decide +kernel) (by decide +kernel)
    (by decide +kernel) (by simp_all)
  refine ⟨first, later, o, hrepeats, fun hreplayed => ?_⟩
  simp [CallRecord.committed, hreplayed] at hcommitted

def repeatedRun : List Turn := [archive ["E1", "E2"], archive ["E1", "E2"]]

theorem effect_replay_repeatedRun : ∃ later o,
    later ∈ (@runSteps asciiText {} "request1" 1 0 repeatedRun).calls ∧
      later.answer = .replayed o := by
  have hlength : (@runSteps asciiText {} "request1" 1 0 repeatedRun).calls.length = 2 := by
    decide +kernel
  have hcommitted : ((@runSteps asciiText {} "request1" 1 0 repeatedRun).calls.head?).any
      (·.committed) = true := by decide +kernel
  have harguments : (@runSteps asciiText {} "request1" 1 0 repeatedRun).calls.map (·.arguments) =
      [[(text "message_refs", texts ["E1", "E2"])], [(text "message_refs", texts ["E1", "E2"])]] := by
    decide +kernel
  obtain ⟨first, later, hcalls⟩ := List.length_eq_two.1 hlength
  obtain ⟨o, hrepeats⟩ := @repeats_of_two asciiText _ first later
    [("message_refs", texts ["E1", "E2"])] hcalls (by decide +kernel) (by decide +kernel)
    (by decide +kernel) (by simpa [hcalls] using hcommitted)
  have htext : @SameText asciiText first later := by
    rw [hcalls] at harguments
    obtain ⟨hfirst, hlater⟩ : first.arguments = _ ∧ later.arguments = _ := by simpa using harguments
    unfold SameText
    rw [hfirst, hlater]
  exact ⟨later, o, by simp [hcalls],
    (@effect_replay asciiText {} "request1" 1 0 repeatedRun first later o hrepeats).1 htext⟩

end Sample

end HardyAI.Core
