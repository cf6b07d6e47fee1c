import HardyAI.Tasks.CodeRunner

/-! What a call of `TaskCodeRunner.run` knows of the script run it has been handed, and how it
ends. -/

open Foundation Foundation.Program

namespace HardyAI.Tasks.CodeRunner

section Holds

/-- Where a call stands with its run: it still has to write the source, it has failed to, it may
execute the run, or it is done with it. -/
inductive Stage
  | making | torn | ready | ended
  deriving DecidableEq

structure Hold where
  args : CreateScriptArgs
  row : ScriptRun
  stage : Stage

def Stage.ofCreate (row : ScriptRun) (created : Bool) : Stage :=
  if created then .making else if row.status.recorded then .ended else .ready

def track : Option Hold → Sigma Op.Reply → Option Hold
  | _, ⟨.createScriptRun a, .ok (row, created)⟩ => some ⟨a, row, .ofCreate row created⟩
  | some x, ⟨.writeSource .., .ok ()⟩ => some { x with stage := .ready }
  | some x, ⟨.writeSource .., .error _⟩ => some { x with stage := .torn }
  | some x, ⟨.finishScriptRun .., .ok _⟩ => some { x with stage := .ended }
  | x, _ => x

def held (h : History Op.Reply) : Option Hold := h.foldl track none

variable {h : History Op.Reply} {e : Sigma Op.Reply} {c : Call} {x : Hold} {runId : Str}

@[simp] theorem held_concat : held (h ++ [e]) = track (held h) e := by
  rw [held, List.foldl_append]
  rfl

def HoldsAt (h : History Op.Reply) (c : Call) (runId : Str) (stage : Stage) : Prop :=
  ∃ x, held h = some x ∧ x.args = createArgs c ∧ x.row.runId = runId ∧ x.stage = stage

/-- What a call asks for: it writes the source of a run it has created, and executes the run
that it has been handed, once. -/
def Allowed (h : History Op.Reply) : Op → Prop
  | .createScriptRun _ => held h = none
  | .openSource runId => ∃ x, held h = some x ∧ x.row.runId = runId ∧ x.stage = .making
  | .writeSource runId source =>
    ∃ x, held h = some x ∧ x.row.runId = runId ∧ x.stage = .making ∧ x.args.source = source
  | .markScriptRunning runId | .launch _ runId _ | .finishScriptRun runId _ =>
    ∃ x, held h = some x ∧ x.row.runId = runId ∧ x.stage = .ready
  | .ensureWorkspace _ | .makeDirectories _ | .protectSource _ | .awaitContainer _
  | .publishedArtifacts .. | .getTask _ => True

/-- A call that returns has refused its source, has found the run recorded and replays its row,
or has asked the launcher to start the run. -/
def Ends (c : Call) (h : History Op.Reply) : Except PyError Answer → Prop
  | .ok .sourceInvalid => invalidSource c = true
  | .ok (.replay row) => row.status.recorded = true ∧
    (⟨.createScriptRun (createArgs c), .ok (row, false)⟩ : Sigma Op.Reply) ∈ h
  | .ok (.finished ..) => ∃ runId r, (⟨.launch c.taskId runId c.workspaceRef, r⟩ : Sigma Op.Reply) ∈ h
  | .error _ => True

theorem conforms_ask {op : Op} {post : History Op.Reply → Except PyError op.Answer → Prop} :
    Conforms Allowed post h (ask op) ↔
      Allowed h op ∧ ∀ r : op.Reply, post (h ++ [⟨op, r⟩]) r := by
  rw [ask, conforms_raising, conforms_perform]

theorem conforms_launched (hready : HoldsAt h c runId .ready) :
    Conforms Allowed (fun h' _ => HoldsAt h' c runId .ready ∧
      ∃ r, (⟨.launch c.taskId runId c.workspaceRef, r⟩ : Sigma Op.Reply) ∈ h') h
      (launched c runId) := by
  obtain ⟨x, hheld, hargs, hrun, hstage⟩ := hready
  have hlaunch : Conforms Allowed (fun h' _ => HoldsAt h' c runId .ready ∧
      ∃ r, (⟨.launch c.taskId runId c.workspaceRef, r⟩ : Sigma Op.Reply) ∈ h') h
      (ask (.launch c.taskId runId c.workspaceRef)) := by
    refine conforms_ask.2 ⟨⟨x, hheld, hrun, hstage⟩, fun r => ⟨⟨x, ?_, hargs, hrun, hstage⟩, r, by simp⟩⟩
    cases r <;> simp [track, hheld]
  have hbody : Conforms Allowed (fun h' (_ : Except PyError LaunchResult) =>
      HoldsAt h' c runId .ready ∧
        ∃ r, (⟨.launch c.taskId runId c.workspaceRef, r⟩ : Sigma Op.Reply) ∈ h') h
      ((ask (.launch c.taskId runId c.workspaceRef)).bind fun _ => ask (.awaitContainer runId)) := by
    refine hlaunch.bind (fun h₁ u _ hpost => ?_) fun h₁ e _ hpost => hpost
    obtain ⟨⟨y, hy, hyargs, hyrun, hystage⟩, r, hmem⟩ := hpost
    refine conforms_ask.2 ⟨trivial, fun r' => ⟨⟨y, ?_, hyargs, hyrun, hystage⟩, r,
      List.mem_append_left _ hmem⟩⟩
    cases r' <;> simp [track, hy]
  exact hbody.handle (fun h₁ a _ hpost => hpost) fun h₁ e _ hpost => hpost

theorem conforms_execute (hready : HoldsAt h c runId .ready) :
    Conforms Allowed (Ends c) h (execute c runId) := by
  obtain ⟨x, hheld, hargs, hrun, hstage⟩ := hready
  have hmark : Conforms Allowed (fun h' _ => HoldsAt h' c runId .ready) h
      (ask (.markScriptRunning runId)) := by
    refine conforms_ask.2 ⟨⟨x, hheld, hrun, hstage⟩, fun r => ⟨x, ?_, hargs, hrun, hstage⟩⟩
    cases r <;> simp [track, hheld]
  refine hmark.bind (fun h₁ u _ hready₁ => ?_) fun _ _ _ _ => trivial
  refine (conforms_launched hready₁).bind (fun h₂ result _ hpost => ?_) fun _ _ _ _ => trivial
  obtain ⟨⟨y, hy, hyargs, hyrun, hystage⟩, r, hmem⟩ := hpost
  have hkept : ∀ (op : Op), (∀ r : op.Reply, track (some y) ⟨op, r⟩ = some y) →
      (op = .publishedArtifacts c.ownerId c.taskId ∨ op = .getTask c.taskId) → ∀ h₃,
      held h₃ = some y → (⟨.launch c.taskId runId c.workspaceRef, r⟩ : Sigma Op.Reply) ∈ h₃ →
      Conforms Allowed (fun h' (_ : Except PyError op.Answer) => held h' = some y ∧
        (⟨.launch c.taskId runId c.workspaceRef, r⟩ : Sigma Op.Reply) ∈ h') h₃ (ask op) := by
    intro op htrack hop h₃ hy₃ hmem₃
    refine conforms_ask.2 ⟨by rcases hop with rfl | rfl <;> trivial, fun r' => ⟨?_, ?_⟩⟩
    · rw [held_concat, hy₃, htrack]
    · exact List.mem_append_left _ hmem₃
  refine (hkept (.publishedArtifacts c.ownerId c.taskId) (fun r => by cases r <;> rfl)
    (.inl rfl) h₂ hy hmem).bind (fun h₃ artifacts _ hpost₃ => ?_) fun _ _ _ _ => trivial
  refine (hkept (.getTask c.taskId) (fun r => by cases r <;> rfl) (.inr rfl) h₃ hpost₃.1
    hpost₃.2).bind (fun h₄ boundary _ hpost₄ => ?_) fun _ _ _ _ => trivial
  have hfinish : ∀ r', Conforms Allowed (fun h' (_ : Except PyError (Option ScriptRun)) =>
      (⟨.launch c.taskId runId c.workspaceRef, r⟩ : Sigma Op.Reply) ∈ h') h₄
      (ask (.finishScriptRun runId r')) := by
    refine fun r' => conforms_ask.2 ⟨⟨y, hpost₄.1, hyrun, hystage⟩, fun reply => ?_⟩
    exact List.mem_append_left _ hpost₄.2
  exact (hfinish _).bind (fun h₅ persisted _ hmem₅ => ⟨runId, r, hmem₅⟩) fun _ _ _ _ => trivial

theorem conforms_saveSource (hmaking : HoldsAt h c runId .making) :
    Conforms Allowed (fun h' r => r = .ok () → HoldsAt h' c runId .ready) h
      (saveSource c runId) := by
  obtain ⟨x, hheld, hargs, hrun, hstage⟩ := hmaking
  have hopen : Conforms Allowed (fun h' _ => held h' = some x) h (ask (.openSource runId)) := by
    refine conforms_ask.2 ⟨⟨x, hheld, hrun, hstage⟩, fun r => ?_⟩
    cases r <;> simp [track, hheld]
  refine hopen.bind (fun h₁ u _ hheld₁ => ?_) fun _ _ _ _ => nofun
  have hwrite : Conforms Allowed (fun h' r => r = .ok () → HoldsAt h' c runId .ready) h₁
      (ask (.writeSource runId c.source)) := by
    refine conforms_ask.2 ⟨⟨x, hheld₁, hrun, hstage, by rw [hargs]; rfl⟩, ?_⟩
    rintro r rfl
    exact ⟨{ x with stage := .ready }, by simp [track, hheld₁], hargs, hrun, rfl⟩
  refine hwrite.bind (fun h₂ u _ hready => ?_) fun _ _ _ _ => nofun
  obtain ⟨y, hy, hyargs, hyrun, hystage⟩ := hready rfl
  refine conforms_ask.2 ⟨trivial, ?_⟩
  rintro r rfl
  exact ⟨y, by simp [track, hy], hyargs, hyrun, hystage⟩

/-- A call replays what is recorded or goes to the launcher, and asks for nothing out of turn. -/
theorem conforms_run (c : Call) : Conforms Allowed (Ends c) [] (run c) := by
  unfold run
  split
  · next hinvalid => exact hinvalid
  have hworkspace : Conforms Allowed (fun h' _ => held h' = none) []
      (ask (.ensureWorkspace c.workspaceRef)) := by
    refine conforms_ask.2 ⟨trivial, fun r => ?_⟩
    cases r <;> rfl
  refine hworkspace.bind (fun h₁ u _ hnone => ?_) fun _ _ _ _ => trivial
  have hcreate : Conforms Allowed (fun h' r => ∀ row created, r = .ok (row, created) →
      held h' = some ⟨createArgs c, row, .ofCreate row created⟩ ∧
      (⟨.createScriptRun (createArgs c), .ok (row, created)⟩ : Sigma Op.Reply) ∈ h') h₁
      (ask (.createScriptRun (createArgs c))) := by
    refine conforms_ask.2 ⟨hnone, ?_⟩
    rintro r row created rfl
    exact ⟨by simp [track], by simp⟩
  refine hcreate.bind (fun h₂ p _ hpost => ?_) fun _ _ _ _ => trivial
  obtain ⟨row, created⟩ := p
  obtain ⟨hheld, hmem⟩ := hpost row created rfl
  have hdirectories : Conforms Allowed (fun h' _ =>
      held h' = some ⟨createArgs c, row, .ofCreate row created⟩ ∧
      (⟨.createScriptRun (createArgs c), .ok (row, created)⟩ : Sigma Op.Reply) ∈ h') h₂
      (ask (.makeDirectories row.runId)) := by
    refine conforms_ask.2 ⟨trivial, fun r => ⟨?_, List.mem_append_left _ hmem⟩⟩
    cases r <;> simp [track, hheld]
  refine hdirectories.bind (fun h₃ u _ hpost₃ => ?_) fun _ _ _ _ => trivial
  cases created with
  | true =>
    have hmaking : HoldsAt h₃ c row.runId .making := ⟨_, hpost₃.1, rfl, rfl, rfl⟩
    refine (conforms_saveSource hmaking).bind (fun h₄ u _ hready => ?_) fun _ _ _ _ => trivial
    exact conforms_execute (hready rfl)
  | false =>
    by_cases hrecorded : row.status.recorded = true
    · simp only [Bool.false_eq_true, if_false, hrecorded, if_true]
      exact ⟨hrecorded, hpost₃.2⟩
    · simp only [Bool.false_eq_true, if_false, hrecorded]
      refine conforms_execute ⟨_, hpost₃.1, rfl, rfl, ?_⟩
      simp [Stage.ofCreate, hrecorded]

end Holds

end HardyAI.Tasks.CodeRunner
