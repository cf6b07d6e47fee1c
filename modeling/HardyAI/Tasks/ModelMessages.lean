import HardyAI.Foundation.Window
import HardyAI.Tasks.StoredResults

/-! The messages that the model is asked with: the last ones of a task that its context has room
for, with a result behind every call. -/

open Foundation Foundation.Json Foundation.Program HardyAI.Jobs HardyAI.Skills

namespace HardyAI.Tasks

section Messages

def MessageRole.value : MessageRole → Str
  | .user => "user"
  | .assistant => "assistant"
  | .tool => "tool"

structure NativeMessage where
  role : MessageRole
  content : Str
  toolCalls : Option (List Json) := none
  toolName : Option Str := none
  toolCallId : Option Str := none
  deriving DecidableEq

def TaskMessage.native (m : TaskMessage) : NativeMessage where
  role := m.role
  content := m.content
  toolCalls := if m.role = .assistant then m.toolCalls else none
  toolName := if m.role = .tool then
    some (((m.toolName.bind optionalText)).getD "unknown_tool") else none
  toolCallId := if m.role = .tool then m.toolCallId.bind optionalText else none

def NativeMessage.toDict (m : NativeMessage) : Fields :=
  let calls : Fields := m.toolCalls.toList.map fun calls => (text "tool_calls", .arr calls)
  let name : Fields := m.toolName.toList.map fun name => (text "tool_name", .str name)
  let callId : Fields := m.toolCallId.toList.map fun callId => (text "tool_call_id", .str callId)
  ("role", .str m.role.value) :: ("content", .str m.content) :: (calls ++ name ++ callId)

def NativeMessage.calls (m : NativeMessage) : List Json :=
  if m.role = .assistant then m.toolCalls.getD [] else []

def NativeMessage.isTool (m : NativeMessage) : Bool := m.role = .tool

/-- `list_messages`. -/
def listMessages (db : TaskDb) (taskId : Str) (limit : Int) : List TaskMessage :=
  let own := db.messages.filter (·.taskId = taskId)
  own.drop (own.length - (max 1 (min limit 2000)).toNat)

def digestLine (m : NativeMessage) : Str := m.role.value ++ text ": " ++ m.content.take 500

/-- The last lines of what is left out. -/
def transcriptDigest (omitted : List NativeMessage) : Str :=
  join "\n" ((omitted.drop (omitted.length - 20)).map digestLine)

end Messages

section Requests

variable [PythonText]

mutual

/-- `json.dumps(value, ensure_ascii=True)`. -/
def spaced : Json → Str
  | .arr items => text "[" ++ join ", " (spacedItems items) ++ text "]"
  | .obj fields => text "\x7b" ++ join ", " (spacedFields fields) ++ text "\x7d"
  | x => x.render true

def spacedItems : List Json → List Str
  | [] => []
  | x :: xs => spaced x :: spacedItems xs

def spacedFields : Fields → List Str
  | [] => []
  | (k, x) :: fields => (quote true k ++ text ": " ++ spaced x) :: spacedFields fields

end

def NativeMessage.size (m : NativeMessage) : Nat := (spaced (.obj m.toDict)).length

/-- The loop over the messages from the last one back; the first one is always taken. -/
def selectRecent (maxChars : Nat) : Nat → List NativeMessage → List NativeMessage →
    List NativeMessage
  | _, selected, [] => selected
  | used, selected, m :: older =>
    if selected ≠ [] ∧ maxChars < used + m.size then selected
    else selectRecent maxChars (used + m.size) (m :: selected) older

/-- The result of a call that the worker has not come to observe. -/
def syntheticResult (call : Json) : Except PyError NativeMessage := do
  let name ← toolName call
  let callId ← toolCallId call
  .ok { role := .tool, toolName := some name, toolCallId := callId
        content := text "\x7b\"status\":\"interrupted\"," ++
          text "\"error_code\":\"worker_restarted_before_observation\"," ++
          text "\"message\":\"Inspect durable effect receipts before retrying this call.\"\x7d" }

/-- The messages with a result for each call; the first argument has the calls of the last message
whose results have not come yet. -/
def complete : List Json → List NativeMessage → Except PyError (List NativeMessage)
  | awaited, [] => awaited.mapM syntheticResult
  | awaited, m :: rest =>
    if m.isTool then (complete (awaited.drop 1) rest).map (m :: ·)
    else do
      let missing ← awaited.mapM syntheticResult
      let behind ← complete m.calls rest
      .ok (missing ++ m :: behind)

structure ModelRequest where
  system : Str
  messages : List NativeMessage
  deriving DecidableEq

/-- `_model_messages`, behind a system prompt. -/
def modelMessages (system : Str) (maxChars : Nat) (db : TaskDb) (taskId : Str) :
    Except PyError ModelRequest := do
  let native := (listMessages db taskId 300).map TaskMessage.native
  let selected :=
    (selectRecent maxChars system.length [] native.reverse).dropWhile NativeMessage.isTool
  let messages ← complete [] selected
  let omitted := native.take (native.length - selected.length)
  .ok { messages
        system := if omitted = [] then system else system ++
          text "\n\nOLDER TRANSCRIPT DIGEST (full record remains durable):\n" ++
          transcriptDigest omitted }

end Requests

section Pairing

variable {ms : List NativeMessage}

/-- The number of results at the front. -/
def resultsBehind (ms : List NativeMessage) : Nat := (ms.takeWhile NativeMessage.isTool).length

/-- Behind every message stand at least as many results as it has calls. -/
def Answered (ms : List NativeMessage) : Prop :=
  ∀ m behind, (m :: behind) <:+ ms → m.isTool = false → m.calls.length ≤ resultsBehind behind

/-- Behind no message stand more results than it has calls. -/
def Unstrayed (ms : List NativeMessage) : Prop :=
  ∀ m behind, (m :: behind) <:+ ms → m.isTool = false → resultsBehind behind ≤ m.calls.length

/-- Each message with calls is followed at once by one result for each, and no result stands
anywhere else. -/
structure Paired (ms : List NativeMessage) : Prop where
  head : ∀ m ∈ ms.head?, m.isTool = false
  counts : ∀ m behind, (m :: behind) <:+ ms → m.isTool = false →
    resultsBehind behind = m.calls.length

theorem paired_iff : Paired ms ↔
    (∀ m ∈ ms.head?, m.isTool = false) ∧ Answered ms ∧ Unstrayed ms := by
  constructor
  · intro h
    exact ⟨h.head, fun m behind hsuffix hm => (h.counts m behind hsuffix hm).ge,
      fun m behind hsuffix hm => (h.counts m behind hsuffix hm).le⟩
  · rintro ⟨hhead, hanswered, hunstrayed⟩
    exact ⟨hhead, fun m behind hsuffix hm =>
      le_antisymm (hunstrayed m behind hsuffix hm) (hanswered m behind hsuffix hm)⟩

theorem Unstrayed.suffix {selected : List NativeMessage} (h : Unstrayed ms)
    (hsuffix : selected <:+ ms) : Unstrayed selected := fun m behind hm =>
  h m behind (hm.trans hsuffix)

theorem resultsBehind_tool {m : NativeMessage} (hm : m.isTool = true) :
    resultsBehind (m :: ms) = resultsBehind ms + 1 := by
  rw [resultsBehind, List.takeWhile_cons_of_pos hm, List.length_cons, resultsBehind]

theorem resultsBehind_of_not {m : NativeMessage} (hm : m.isTool = false) :
    resultsBehind (m :: ms) = 0 := by
  rw [resultsBehind, List.takeWhile_cons_of_neg (by simp [hm]), List.length_nil]

theorem resultsBehind_append {results : List NativeMessage}
    (hresults : ∀ m ∈ results, m.isTool = true) (ms : List NativeMessage) :
    resultsBehind (results ++ ms) = results.length + resultsBehind ms := by
  rw [resultsBehind, List.takeWhile_append_of_pos hresults, List.length_append, resultsBehind]

theorem resultsBehind_dropWhile (ms : List NativeMessage) :
    resultsBehind (ms.dropWhile NativeMessage.isTool) = 0 := by
  induction ms with
  | nil => rfl
  | cons m ms ih =>
    cases hm : m.isTool with
    | true => rwa [List.dropWhile_cons_of_pos hm]
    | false => rw [List.dropWhile_cons_of_neg (by simp [hm]), resultsBehind_of_not hm]

theorem not_tool_of_resultsBehind (h : resultsBehind ms = 0) :
    ∀ m ∈ ms.head?, m.isTool = false := by
  intro m hm
  obtain ⟨rest, rfl⟩ : ∃ rest, ms = m :: rest := List.head?_eq_some_iff.1 hm
  cases hnot : m.isTool with
  | false => rfl
  | true =>
    rw [resultsBehind_tool hnot] at h
    cases h

/-- A history goes on with a message that is no result. -/
theorem Unstrayed.append {xs ys : List NativeMessage} (hxs : Unstrayed xs) (hys : Unstrayed ys)
    (hhead : resultsBehind ys = 0) : Unstrayed (xs ++ ys) := by
  have hfront : ∀ xs : List NativeMessage, resultsBehind (xs ++ ys) = resultsBehind xs := by
    intro xs
    induction xs with
    | nil => exact hhead
    | cons x xs ih =>
      cases hx : x.isTool with
      | true => rw [List.cons_append, resultsBehind_tool hx, resultsBehind_tool hx, ih]
      | false => rw [List.cons_append, resultsBehind_of_not hx, resultsBehind_of_not hx]
  induction xs with
  | nil => exact hys
  | cons x xs ih =>
    intro m behind hm hnot
    rcases List.suffix_cons_iff.1 hm with heq | hlater
    · obtain ⟨rfl, rfl⟩ := List.cons.inj heq
      exact (hfront xs).le.trans (hxs m xs List.suffix_rfl hnot)
    · exact ih (hxs.suffix (List.suffix_cons x xs)) m behind hlater hnot

/-- A message that is no result is not among results. -/
theorem suffix_of_results {results : List NativeMessage} {m : NativeMessage}
    {behind : List NativeMessage} (hresults : ∀ r ∈ results, r.isTool = true)
    (hm : m.isTool = false) (h : (m :: behind) <:+ results ++ ms) : (m :: behind) <:+ ms := by
  induction results with
  | nil => exact h
  | cons r results ih =>
    rcases List.suffix_cons_iff.1 h with heq | hrest
    · obtain ⟨rfl, -⟩ := List.cons.inj heq
      rw [hresults m List.mem_cons_self] at hm
      cases hm
    · exact ih (fun r hr => hresults r (List.mem_cons_of_mem _ hr)) hrest

variable {awaited : List Json} {selected : List NativeMessage}

/-- What is completed keeps its messages in order; behind each stand as many results as it has
calls, or as many as there were if they were more. -/
structure Completes (awaited : List Json) (selected ms : List NativeMessage) : Prop where
  kept : selected.Sublist ms
  front : resultsBehind ms = max awaited.length (resultsBehind selected)
  origin : ∀ m behind, (m :: behind) <:+ ms → m.isTool = false → ∃ old,
    (m :: old) <:+ selected ∧ resultsBehind behind = max m.calls.length (resultsBehind old)
  image : ∀ m old, (m :: old) <:+ selected → m.isTool = false → ∃ behind,
    (m :: behind) <:+ ms ∧ resultsBehind behind = max m.calls.length (resultsBehind old)

theorem Completes.answered (h : Completes awaited selected ms) : Answered ms := by
  intro m behind hm hnot
  obtain ⟨old, -, hcount⟩ := h.origin m behind hm hnot
  rw [hcount]
  exact le_max_left _ _

theorem Completes.unstrayed_iff (h : Completes awaited selected ms) :
    Unstrayed ms ↔ Unstrayed selected := by
  constructor
  · intro hunstrayed m old hold hnot
    obtain ⟨behind, hbehind, hcount⟩ := h.image m old hold hnot
    have hless := hunstrayed m behind hbehind hnot
    omega
  · intro hunstrayed m behind hbehind hnot
    obtain ⟨old, hold, hcount⟩ := h.origin m behind hbehind hnot
    have hless := hunstrayed m old hold hnot
    omega

end Pairing

section Completion

variable [PythonText] {awaited : List Json} {selected ms missing : List NativeMessage}
  {first : NativeMessage}

theorem synthetic_isTool {call : Json} {m : NativeMessage} (h : syntheticResult call = .ok m) :
    m.isTool = true := by
  obtain ⟨name, -, h⟩ := bind_eq_ok.1 h
  obtain ⟨callId, -, h⟩ := bind_eq_ok.1 h
  obtain rfl := Except.ok.inj h
  rfl

theorem missing_spec {missing : List NativeMessage}
    (h : awaited.mapM syntheticResult = .ok missing) :
    (∀ m ∈ missing, m.isTool = true) ∧ missing.length = awaited.length := by
  refine ⟨fun m hm => ?_, mapM_length h⟩
  induction awaited generalizing missing with
  | nil =>
    obtain rfl := Except.ok.inj h
    cases hm
  | cons call awaited ih =>
    rw [List.mapM_cons] at h
    obtain ⟨first, hfirst, h⟩ := bind_eq_ok.1 h
    obtain ⟨rest, hrest, h⟩ := bind_eq_ok.1 h
    obtain rfl := Except.ok.inj h
    rcases List.mem_cons.1 hm with rfl | hm
    · exact synthetic_isTool hfirst
    · exact ih hrest hm

/-- Behind the last message only the missing results are added. -/
theorem Completes.last (h : awaited.mapM syntheticResult = .ok ms) :
    Completes awaited [] ms := by
  obtain ⟨hresults, hlength⟩ := missing_spec h
  have hcount : resultsBehind ms = awaited.length := by
    have happend := resultsBehind_append hresults []
    rw [List.append_nil, hlength] at happend
    exact happend
  refine ⟨List.nil_sublist ms, hcount.trans (Nat.max_zero _).symm, fun m behind hm hnot => ?_,
    fun m old hm => ?_⟩
  · rw [← List.append_nil ms] at hm
    exact absurd (suffix_of_results hresults hnot hm).length_le (by simp)
  · exact absurd hm.length_le (by simp)

omit [PythonText] in
/-- A result stands for the first call that waits. -/
theorem Completes.result (hfirst : first.isTool = true)
    (h : Completes (awaited.drop 1) selected ms) :
    Completes awaited (first :: selected) (first :: ms) := by
  have hone : ∀ r ∈ [first], r.isTool = true := by simpa using hfirst
  have hfront := h.front
  rw [List.length_drop] at hfront
  refine ⟨h.kept.cons_cons first, ?_, fun m behind hm hnot => ?_, fun m old hm hnot => ?_⟩
  · rw [resultsBehind_tool hfirst, resultsBehind_tool hfirst, hfront]
    omega
  · obtain ⟨old, hold, hcount⟩ := h.origin m behind (suffix_of_results hone hnot hm) hnot
    exact ⟨old, hold.trans (List.suffix_cons first selected), hcount⟩
  · obtain ⟨behind, hbehind, hcount⟩ := h.image m old (suffix_of_results hone hnot hm) hnot
    exact ⟨behind, hbehind.trans (List.suffix_cons first ms), hcount⟩

/-- Another message stands behind the results that were still missing. -/
theorem Completes.message (hfirst : first.isTool = false)
    (hmissing : awaited.mapM syntheticResult = .ok missing)
    (h : Completes first.calls selected ms) :
    Completes awaited (first :: selected) (missing ++ first :: ms) := by
  obtain ⟨hresults, hlength⟩ := missing_spec hmissing
  refine ⟨(h.kept.cons_cons first).trans (List.sublist_append_right _ _), ?_,
    fun m later hm hnot => ?_, fun m old hm hnot => ?_⟩
  · rw [resultsBehind_append hresults, resultsBehind_of_not hfirst,
      resultsBehind_of_not hfirst, hlength]
    omega
  · rcases List.suffix_cons_iff.1 (suffix_of_results hresults hnot hm) with heq | hlater
    · obtain ⟨rfl, rfl⟩ := List.cons.inj heq
      exact ⟨selected, List.suffix_rfl, h.front⟩
    · obtain ⟨old, hold, hcount⟩ := h.origin m later hlater hnot
      exact ⟨old, hold.trans (List.suffix_cons first selected), hcount⟩
  · rcases List.suffix_cons_iff.1 hm with heq | hold
    · obtain ⟨rfl, rfl⟩ := List.cons.inj heq
      exact ⟨ms, List.suffix_append missing _, h.front⟩
    · obtain ⟨later, hlater, hcount⟩ := h.image m old hold hnot
      exact ⟨later, (hlater.trans (List.suffix_cons first ms)).trans
        (List.suffix_append missing _), hcount⟩

theorem complete_spec (h : complete awaited selected = .ok ms) :
    Completes awaited selected ms := by
  induction selected generalizing awaited ms with
  | nil => exact Completes.last h
  | cons first rest ih =>
    rw [complete] at h
    cases hfirst : first.isTool with
    | true =>
      rw [if_pos hfirst] at h
      obtain ⟨ms, hrest, rfl⟩ := map_eq_ok.1 h
      exact (ih hrest).result hfirst
    | false =>
      rw [if_neg (by simp [hfirst])] at h
      obtain ⟨missing, hmissing, h⟩ := bind_eq_ok.1 h
      obtain ⟨behind, hbehind, h⟩ := bind_eq_ok.1 h
      obtain rfl := Except.ok.inj h
      exact (ih hbehind).message hfirst hmissing

end Completion

section Selection

variable [PythonText] {system : Str} {maxChars : Nat} {selected : List NativeMessage}

def totalSize (ms : List NativeMessage) : Nat := (ms.map NativeMessage.size).sum

/-- What the context has room for behind a prompt; the last message is always taken. -/
def HasRoom (system : Str) (maxChars : Nat) (ms : List NativeMessage) : Prop :=
  ms.length ≤ 1 ∨ system.length + totalSize ms ≤ maxChars

instance (system : Str) (maxChars : Nat) : DecidablePred (HasRoom system maxChars) := fun ms =>
  inferInstanceAs (Decidable (ms.length ≤ 1 ∨ system.length + totalSize ms ≤ maxChars))

theorem HasRoom.right (xs ys : List NativeMessage) (h : HasRoom system maxChars (xs ++ ys)) :
    HasRoom system maxChars ys := by
  have hsize : totalSize (xs ++ ys) = totalSize xs + totalSize ys := by
    rw [totalSize, List.map_append, List.sum_append, totalSize, totalSize]
  rw [HasRoom, List.length_append] at h
  rw [HasRoom]
  omega

/-- The loop takes the longest end of the messages that there is room for. -/
theorem selectRecent_eq (older : List NativeMessage)
    (hselected : selected = [] ∨ HasRoom system maxChars selected) :
    selectRecent maxChars (system.length + totalSize selected) selected older =
      window (HasRoom system maxChars) (older.reverse ++ selected) := by
  induction older generalizing selected with
  | nil =>
    rw [List.reverse_nil, List.nil_append, selectRecent, window_of_fits]
    exact hselected.elim (fun hnil => .inl (by simp [hnil])) id
  | cons m older ih =>
    have hsize : system.length + totalSize selected + m.size =
        system.length + totalSize (m :: selected) := by
      rw [totalSize, totalSize, List.map_cons, List.sum_cons]
      omega
    rw [selectRecent, hsize, List.reverse_cons, List.append_assoc, List.singleton_append]
    by_cases hover : selected ≠ [] ∧ maxChars < system.length + totalSize (m :: selected)
    · rw [if_pos hover]
      have hlength := List.length_pos_iff.2 hover.1
      have hfull : ¬HasRoom system maxChars (m :: selected) := by
        rw [HasRoom, List.length_cons]
        omega
      exact (window_append HasRoom.right hfull (hselected.resolve_left hover.1) _).symm
    · rw [if_neg hover]
      refine ih (.inr ?_)
      by_cases hnil : selected = []
      · exact .inl (by simp [hnil])
      · exact .inr (Nat.le_of_not_lt fun hmore => hover ⟨hnil, hmore⟩)

end Selection

section Asked

variable [PythonText] {system : Str} {maxChars : Nat} {db : TaskDb} {taskId : Str}
  {request : ModelRequest} {kept messages : List NativeMessage}

/-- The messages of a task that are read, in the form in which the model is asked. -/
def recentNative (db : TaskDb) (taskId : Str) : List NativeMessage :=
  (listMessages db taskId 300).map TaskMessage.native

/-- The recent messages that there is room for. -/
def keptNative (system : Str) (maxChars : Nat) (db : TaskDb) (taskId : Str) :
    List NativeMessage :=
  window (HasRoom system maxChars) (recentNative db taskId)

theorem messages_modelMessages (system : Str) (maxChars : Nat) (db : TaskDb) (taskId : Str) :
    (modelMessages system maxChars db taskId).map ModelRequest.messages =
      complete [] ((keptNative system maxChars db taskId).dropWhile NativeMessage.isTool) := by
  have hselect : selectRecent maxChars system.length [] (recentNative db taskId).reverse =
      keptNative system maxChars db taskId := by
    have hloop : selectRecent maxChars (system.length + totalSize []) []
        (recentNative db taskId).reverse = window (HasRoom system maxChars)
          ((recentNative db taskId).reverse.reverse ++ []) := selectRecent_eq _ (.inl rfl)
    rwa [List.reverse_reverse, List.append_nil] at hloop
  rw [← hselect, modelMessages]
  show ((complete [] ((selectRecent maxChars system.length []
    (recentNative db taskId).reverse).dropWhile NativeMessage.isTool)).bind _).map _ = _
  generalize complete [] _ = result
  cases result <;> rfl

/-- Behind what is kept without the results in front. -/
theorem completed_spec
    (h : complete [] (kept.dropWhile NativeMessage.isTool) = .ok messages) :
    (∀ m ∈ messages.head?, m.isTool = false) ∧ Answered messages ∧
      (Paired messages ↔ Unstrayed (kept.dropWhile NativeMessage.isTool)) := by
  have hdone := complete_spec h
  have hhead : ∀ m ∈ messages.head?, m.isTool = false := by
    refine not_tool_of_resultsBehind ?_
    rw [hdone.front, resultsBehind_dropWhile]
    rfl
  refine ⟨hhead, hdone.answered, ?_⟩
  rw [paired_iff, ← hdone.unstrayed_iff]
  exact ⟨fun hpaired => hpaired.2.2, fun hunstrayed => ⟨hhead, hdone.answered, hunstrayed⟩⟩

end Asked

section Rounds

variable [PythonText] {system : Str} {maxChars : Nat} {db : TaskDb} {taskId : Str}
  {ms : List TaskMessage}

/-- A call whose name and identifier can be read. -/
def Named (call : Json) : Prop :=
  ∃ name callId, toolName call = .ok name ∧ toolCallId call = .ok callId

def ModelReply.message (taskId : Str) (reply : ModelReply) : TaskMessage :=
  { taskId, role := .assistant, content := reply.content, toolCalls := reply.toolCalls }

/-- The messages of a task into which nobody writes between a message and its results: the owner's
messages, answers, and messages with calls, each with the results that following it has stored
until the worker went on or stopped at any point. -/
inductive Rounds (taskId : Str) : List TaskMessage → Prop
  | nil : Rounds taskId []
  | owner {ms : List TaskMessage} {m : TaskMessage} (h : Rounds taskId ms)
      (hrole : m.role = .user) : Rounds taskId (ms ++ [m])
  | answer {ms : List TaskMessage} {reply : ModelReply} (h : Rounds taskId ms)
      (hcalls : reply.calls = []) : Rounds taskId (ms ++ [reply.message taskId])
  | round {ms : List TaskMessage} {reply : ModelReply} {w : WorkerConfig} {task : AgentTask}
      {r step : Int} {identical : List Str} {h whole : History Op.Reply}
      {x : Except PyError StepOutcome} (hbefore : Rounds taskId ms) (hcalls : reply.calls ≠ [])
      (hnamed : ∀ call ∈ reply.calls, Named call)
      (hrun : Runs (followReply w task r step identical reply) whole x) (hstopped : h <+: whole) :
      Rounds taskId (ms ++ reply.message taskId :: acceptedResults h)

theorem results_le_calls {w : WorkerConfig} {task : AgentTask} {r step : Int}
    {identical : List Str} {reply : ModelReply} {h : History Op.Reply}
    {x : Except PyError StepOutcome} (hcalls : reply.calls ≠ [])
    (hrun : Runs (followReply w task r step identical reply) h x) :
    (acceptedResults h).length ≤ reply.calls.length := by
  obtain ⟨found, rest, rfl, hfollow⟩ := runs_followReply hcalls hrun
  have haccepted : acceptedResults (⟨.getTask task.taskId, found⟩ :: rest) =
    acceptedResults rest := rfl
  rw [haccepted]
  rcases hfollow with ⟨-, hexecute⟩ | ⟨-, y, hinterrupt, -⟩
  · obtain ⟨handled, behind, hsplit, hforall, -⟩ := (handled_runCalls hexecute).results
    rw [hsplit, List.length_append, ← hforall.length_eq]
    exact Nat.le_add_right _ _
  · obtain ⟨-, handled, behind, hsplit, hforall, -⟩ := runs_interruptCalls hinterrupt
    rw [hsplit, List.length_append, ← hforall.length_eq]
    exact Nat.le_add_right _ _

omit [PythonText] in
theorem role_of_accepted {h : History Op.Reply} {m : TaskMessage} (hm : m ∈ acceptedResults h) :
    m.role = .tool := by
  obtain ⟨e, -, he⟩ := List.mem_filterMap.1 hm
  unfold acceptedResult at he
  split at he
  · split at he
    · next htool =>
      obtain rfl := Option.some.inj he
      exact htool
    · cases he
  · cases he

/-- The calls of a history can be named, and no result stands astray in it. -/
structure Orderly (ms : List TaskMessage) : Prop where
  named : ∀ m ∈ ms, ∀ call ∈ m.native.calls, Named call
  unstrayed : Unstrayed (ms.map TaskMessage.native)

theorem Orderly.append {xs ys : List TaskMessage} (hxs : Orderly xs) (hys : Orderly ys)
    (hhead : resultsBehind (ys.map TaskMessage.native) = 0) : Orderly (xs ++ ys) := by
  refine ⟨fun m hm => (List.mem_append.1 hm).elim (hxs.named m) (hys.named m), ?_⟩
  rw [List.map_append]
  exact hxs.unstrayed.append hys.unstrayed hhead

omit [PythonText] in
theorem native_isTool (m : TaskMessage) : m.native.isTool = true ↔ m.role = .tool :=
  decide_eq_true_iff

/-- A message with at most as many results as it has calls. -/
theorem orderly_round {m : TaskMessage} {results : List TaskMessage} (hrole : m.role ≠ .tool)
    (hresults : ∀ r ∈ results, r.role = .tool) (hlength : results.length ≤ m.native.calls.length)
    (hnamed : ∀ call ∈ m.native.calls, Named call) :
    Orderly (m :: results) ∧ resultsBehind ((m :: results).map TaskMessage.native) = 0 := by
  have htools : ∀ r ∈ results.map TaskMessage.native, r.isTool = true := by
    intro r hr
    obtain ⟨result, hresult, rfl⟩ := List.mem_map.1 hr
    exact (native_isTool result).2 (hresults result hresult)
  have hnot : m.native.isTool = false :=
    Bool.eq_false_iff.2 fun htool => hrole ((native_isTool m).1 htool)
  refine ⟨⟨fun r hr call hcall => ?_, fun first behind hsuffix hfirst => ?_⟩,
    resultsBehind_of_not hnot⟩
  · rcases List.mem_cons.1 hr with rfl | hr
    · exact hnamed call hcall
    · have hnone : r.native.calls = [] := by
        rw [NativeMessage.calls, if_neg]
        show r.role ≠ .assistant
        rw [hresults r hr]
        exact MessageRole.noConfusion
      rw [hnone] at hcall
      cases hcall
  · rcases List.suffix_cons_iff.1 hsuffix with heq | hinside
    · obtain ⟨rfl, rfl⟩ := List.cons.inj heq
      have hcount := resultsBehind_append htools []
      rw [List.append_nil, List.length_map] at hcount
      exact hcount.le.trans hlength
    · rw [← List.append_nil (List.map TaskMessage.native results)] at hinside
      exact absurd (suffix_of_results htools hfirst hinside).length_le (by simp)

omit [PythonText] in
theorem calls_message (taskId : Str) (reply : ModelReply) :
    (reply.message taskId).native.calls = reply.calls := rfl

theorem orderly_of_rounds (h : Rounds taskId ms) : Orderly ms := by
  induction h with
  | nil =>
    exact ⟨fun m hm => absurd hm List.not_mem_nil,
      fun m behind hm => absurd hm.length_le (by simp)⟩
  | @owner ms m hbefore hrole ih =>
    have hnone : m.native.calls = [] := by
      rw [NativeMessage.calls, if_neg]
      show m.role ≠ .assistant
      rw [hrole]
      exact MessageRole.noConfusion
    have hrole' : m.role ≠ .tool := by
      rw [hrole]
      exact MessageRole.noConfusion
    have hround : Orderly [m] ∧ resultsBehind ([m].map TaskMessage.native) = 0 :=
      orderly_round hrole' (by simp) (Nat.zero_le _) (by simp [hnone])
    exact ih.append hround.1 hround.2
  | @answer ms reply hbefore hcalls ih =>
    have hround : Orderly [reply.message taskId] ∧
        resultsBehind ([reply.message taskId].map TaskMessage.native) = 0 :=
      orderly_round MessageRole.noConfusion (by simp) (Nat.zero_le _)
        (by simp [calls_message, hcalls])
    exact ih.append hround.1 hround.2
  | @round ms reply w task r step identical h whole x hbefore hcalls hnamed hrun hstopped ih =>
    obtain ⟨later, rfl⟩ := hstopped
    have hlength := results_le_calls hcalls hrun
    rw [acceptedResults_append, List.length_append] at hlength
    obtain ⟨horderly, hhead⟩ := orderly_round (m := reply.message taskId)
      MessageRole.noConfusion (fun m hm => role_of_accepted hm)
      ((Nat.le_of_add_right_le hlength).trans_eq (by rw [calls_message])) hnamed
    exact ih.append horderly hhead

theorem missing_isOk {calls : List Json} (h : ∀ call ∈ calls, Named call) :
    ∃ missing, calls.mapM syntheticResult = .ok missing := by
  induction calls with
  | nil => exact ⟨[], rfl⟩
  | cons call calls ih =>
    obtain ⟨name, callId, hname, hid⟩ := h call List.mem_cons_self
    obtain ⟨missing, hrest⟩ := ih fun c hc => h c (List.mem_cons_of_mem call hc)
    obtain ⟨first, hfirst⟩ : ∃ first, syntheticResult call = .ok first :=
      ⟨_, bind_eq_ok.2 ⟨name, hname, bind_eq_ok.2 ⟨callId, hid, rfl⟩⟩⟩
    refine ⟨first :: missing, ?_⟩
    rw [List.mapM_cons]
    exact bind_eq_ok.2 ⟨first, hfirst, bind_eq_ok.2 ⟨missing, hrest, rfl⟩⟩

theorem complete_isOk {awaited : List Json} {selected : List NativeMessage}
    (hawaited : ∀ call ∈ awaited, Named call)
    (hselected : ∀ m ∈ selected, ∀ call ∈ m.calls, Named call) :
    ∃ messages, complete awaited selected = .ok messages := by
  induction selected generalizing awaited with
  | nil => exact missing_isOk hawaited
  | cons m rest ih =>
    rw [complete]
    have hrest : ∀ m ∈ rest, ∀ call ∈ m.calls, Named call := fun n hn =>
      hselected n (List.mem_cons_of_mem m hn)
    cases hm : m.isTool with
    | true =>
      obtain ⟨messages, hdone⟩ := ih (fun c hc => hawaited c (List.mem_of_mem_drop hc)) hrest
      rw [if_pos rfl]
      exact ⟨m :: messages, map_eq_ok.2 ⟨messages, hdone, rfl⟩⟩
    | false =>
      obtain ⟨missing, hsynthetic⟩ := missing_isOk hawaited
      obtain ⟨messages, hdone⟩ := ih (hselected m List.mem_cons_self) hrest
      rw [if_neg Bool.false_ne_true]
      exact ⟨missing ++ m :: messages,
        bind_eq_ok.2 ⟨missing, hsynthetic, bind_eq_ok.2 ⟨messages, hdone, rfl⟩⟩⟩

omit [PythonText] in
theorem recentNative_suffix (db : TaskDb) (taskId : Str) :
    recentNative db taskId <:+
      (db.messages.filter (·.taskId = taskId)).map TaskMessage.native :=
  (List.drop_suffix _ _).map _

end Rounds

section Sample

def askedMessage : TaskMessage :=
  { taskId := "t1", role := .user, content := "Summarize the notes." }

/-- The owner has written before the second call of the message was observed. -/
def steeredDb : TaskDb :=
  { TaskDb.empty with messages := [askedMessage, finishThenPlan.message "t1",
    toolMessage "t1" "finish_task" none "\x7b\x7d", askedMessage,
    toolMessage "t1" "update_plan" none "\x7b\x7d"] }

/-- The worker has stopped before it followed the message. -/
def stoppedDb : TaskDb :=
  { TaskDb.empty with messages := [askedMessage, finishThenPlan.message "t1"] }

end Sample

end HardyAI.Tasks
