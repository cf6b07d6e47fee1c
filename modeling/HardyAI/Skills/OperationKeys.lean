import HardyAI.Foundation.Digests
import HardyAI.Skills.PlainText

/-! Which operations and which children of an operation share an identifier. -/

open Foundation Foundation.Json

namespace HardyAI.Skills

variable [PythonText]

section Hashes

theorem sha256_eq_ok {value : Json} {hash : Str} (h : sha256 value = .ok hash) :
    ∃ canonical bytes, canonicalJson value = .ok canonical ∧ utf8 canonical = .ok bytes ∧
      bytes ∈ messageOf (canonicalJson value) ∧ hash = Sha256.hexdigest bytes := by
  simp only [sha256, bind_eq_ok] at h
  obtain ⟨canonical, hcanonical, bytes, hbytes, hhash⟩ := h
  exact ⟨canonical, bytes, hcanonical, hbytes,
    mem_messageOf (bind_eq_ok.2 ⟨canonical, hcanonical, hbytes⟩), (Except.ok.inj hhash).symm⟩

omit [PythonText] in
theorem digest_eq_ok {s hash : Str} (h : digest s = .ok hash) :
    ∃ bytes, utf8 s = .ok bytes ∧ bytes ∈ messageOf (.ok s) ∧ hash = Sha256.hexdigest bytes := by
  simp only [digest, bind_eq_ok] at h
  obtain ⟨bytes, hbytes, hhash⟩ := h
  exact ⟨bytes, hbytes, mem_messageOf (bind_eq_ok.2 ⟨s, rfl, hbytes⟩), (Except.ok.inj hhash).symm⟩

theorem newline_notMem_sha256 {value : Json} {hash : Str} (h : sha256 value = .ok hash) :
    newline ∉ hash := by
  obtain ⟨_, bytes, -, -, -, rfl⟩ := sha256_eq_ok h
  exact newline_notMem_hexdigest bytes

/-- Equal hashes are hashes of one canonical text. -/
theorem sha256_inj {messages : List (List Nat)} (hfree : CollisionFree messages)
    {a b : Json} {s t : Str} (hs : sha256 a = .ok s) (ht : sha256 b = .ok t)
    (ha : ∀ m ∈ messageOf (canonicalJson a), m ∈ messages)
    (hb : ∀ m ∈ messageOf (canonicalJson b), m ∈ messages) :
    s = t ↔ canonicalJson a = canonicalJson b := by
  obtain ⟨c, bytes, hc, hbytes, hmem, rfl⟩ := sha256_eq_ok hs
  obtain ⟨c', bytes', hc', hbytes', hmem', rfl⟩ := sha256_eq_ok ht
  rw [digest_inj hfree hbytes hbytes' (ha _ hmem) (hb _ hmem'), hc, hc', Except.ok.injEq]

end Hashes

section Operations

/-- The text that the identifier of an operation hashes. -/
def operationMaterial (root toolId : Str) (contractVersion callOrdinal : Int)
    (argumentsHash : Str) : Str :=
  root ++ text "\n" ++ toolId ++ text "\n" ++ intText contractVersion ++ text "\n" ++
    intText callOrdinal ++ text "\n" ++ argumentsHash

omit [PythonText] in
theorem operationMaterial_inj {root root' toolId toolId' hash hash' : Str}
    {version version' ordinal ordinal' : Int} (htool : newline ∉ toolId)
    (htool' : newline ∉ toolId') (hhash : newline ∉ hash) (hhash' : newline ∉ hash') :
    operationMaterial root toolId version ordinal hash =
        operationMaterial root' toolId' version' ordinal' hash' ↔
      root = root' ∧ toolId = toolId' ∧ version = version' ∧ ordinal = ordinal' ∧ hash = hash' := by
  rw [operationMaterial, operationMaterial, lines_inj hhash hhash',
    lines_inj (newline_notMem_intText _) (newline_notMem_intText _),
    lines_inj (newline_notMem_intText _) (newline_notMem_intText _), lines_inj htool htool',
    intText_injective.eq_iff, intText_injective.eq_iff]
  simp only [and_assoc]

/-- The messages that an operation hashes. -/
def operationMessages (rootRequestId toolId : Str) (contractVersion callOrdinal : Int)
    (identity : OperationIdentity) : List (List Nat) :=
  messageOf (canonicalJson (.obj identity.arguments)) ++
    messageOf (.ok (operationMaterial (strip rootRequestId) (fold toolId) contractVersion
      callOrdinal identity.argumentsHash))

omit [PythonText] in
theorem newline_notMem_toolId {s : Str} (h : isToolId s = true) : newline ∉ s := by
  intro hmem
  have hplain := isPlain_of_isToolId h newline hmem
  revert hplain
  decide

theorem toolOperationId_eq_ok {rootRequestId toolId : Str} {contractVersion callOrdinal : Int}
    {arguments : List (Str × Json)} {identity : OperationIdentity}
    (h : toolOperationId rootRequestId toolId contractVersion callOrdinal arguments =
      .ok identity) :
    newline ∉ fold toolId ∧ sha256 (.obj identity.arguments) = .ok identity.argumentsHash ∧
      ∃ hash, digest (operationMaterial (strip rootRequestId) (fold toolId) contractVersion
        callOrdinal identity.argumentsHash) = .ok hash ∧
        identity.operationId = text "toolop_v1_" ++ hash := by
  simp only [toolOperationId, bind_eq_ok, require_eq_ok] at h
  obtain ⟨-, -, -, htool, -, -, -, -, normalized, -, argumentsHash, hhash, operation, hoperation,
    h⟩ := h
  cases h
  exact ⟨newline_notMem_toolId htool, hhash, operation, hoperation, rfl⟩

theorem toolOperationId_inj {root root' toolId toolId' : Str}
    {version version' ordinal ordinal' : Int} {arguments arguments' : List (Str × Json)}
    {i i' : OperationIdentity} (h : toolOperationId root toolId version ordinal arguments = .ok i)
    (h' : toolOperationId root' toolId' version' ordinal' arguments' = .ok i')
    (hfree : CollisionFree (operationMessages root toolId version ordinal i ++
      operationMessages root' toolId' version' ordinal' i')) :
    i.operationId = i'.operationId ↔
      strip root = strip root' ∧ fold toolId = fold toolId' ∧ version = version' ∧
        ordinal = ordinal' ∧
        canonicalJson (.obj i.arguments) = canonicalJson (.obj i'.arguments) := by
  obtain ⟨htool, hargs, hash, hdigest, hid⟩ := toolOperationId_eq_ok h
  obtain ⟨htool', hargs', hash', hdigest', hid'⟩ := toolOperationId_eq_ok h'
  obtain ⟨bytes, hbytes, hmem, rfl⟩ := digest_eq_ok hdigest
  obtain ⟨bytes', hbytes', hmem', rfl⟩ := digest_eq_ok hdigest'
  have hmessage : bytes ∈ operationMessages root toolId version ordinal i ++
      operationMessages root' toolId' version' ordinal' i' :=
    List.mem_append_left _ (List.mem_append_right _ hmem)
  have hmessage' : bytes' ∈ operationMessages root toolId version ordinal i ++
      operationMessages root' toolId' version' ordinal' i' :=
    List.mem_append_right _ (List.mem_append_right _ hmem')
  have hcanonical := sha256_inj hfree hargs hargs'
    (fun m hm => List.mem_append_left _ (List.mem_append_left _ hm))
    (fun m hm => List.mem_append_right _ (List.mem_append_left _ hm))
  rw [hid, hid', List.append_cancel_left_eq, digest_inj hfree hbytes hbytes' hmessage hmessage',
    operationMaterial_inj htool htool' (newline_notMem_sha256 hargs) (newline_notMem_sha256 hargs'),
    hcanonical]

end Operations

section Children

/-- The text that the identifier of a child hashes. -/
def childMaterial (parent : Str) (childIndex : Nat) (target argumentsHash : Str) : Str :=
  join "\n" [parent, natText childIndex, target, argumentsHash]

def childMessages (operationId : Str) (childIndex : Nat) (targetRef : Str)
    (childArguments : List (Str × Json)) (argumentsHash : Str) : List (List Nat) :=
  messageOf (canonicalJson (.obj childArguments)) ++
    messageOf (.ok (childMaterial (strip operationId) childIndex (strip targetRef) argumentsHash))

omit [PythonText] in
theorem childMaterial_inj {parent parent' target target' hash hash' : Str} {n n' : Nat}
    (htarget : newline ∉ target) (htarget' : newline ∉ target') (hhash : newline ∉ hash)
    (hhash' : newline ∉ hash') :
    childMaterial parent n target hash = childMaterial parent' n' target' hash' ↔
      parent = parent' ∧ n = n' ∧ target = target' ∧ hash = hash' := by
  have hlines : ∀ (p t h : Str) (n : Nat), childMaterial p n t h =
      p ++ text "\n" ++ natText n ++ text "\n" ++ t ++ text "\n" ++ h := by
    intro p t h n
    simp only [childMaterial, join, List.append_assoc]
  rw [hlines, hlines, lines_inj hhash hhash', lines_inj htarget htarget',
    lines_inj (newline_notMem_natText _) (newline_notMem_natText _), natText_injective.eq_iff]
  simp only [and_assoc]

omit [PythonText] in
theorem newline_notMem_opaqueRef {s : Str} (h : isOpaqueRef s = true) : newline ∉ s := by
  have hfirst : isAlphanumeric newline = false := by decide
  have hother : (text "_.:/-").contains newline = false := by decide
  cases s with
  | nil => exact List.not_mem_nil
  | cons c s =>
    simp only [isOpaqueRef, Bool.and_eq_true, List.all_eq_true, Bool.or_eq_true] at h
    obtain ⟨⟨hc, -⟩, hs⟩ := h
    intro hmem
    rcases List.mem_cons.1 hmem with rfl | hmem
    · rw [hfirst] at hc
      cases hc
    · have hnewline := hs _ hmem
      rw [hfirst, hother] at hnewline
      exact hnewline.elim Bool.false_ne_true Bool.false_ne_true

theorem toolChildOperationId_eq_ok {operationId targetRef : Str} {childIndex : Nat}
    {childArguments : List (Str × Json)} {child argumentsHash : Str}
    (h : toolChildOperationId operationId childIndex targetRef childArguments =
      .ok (child, argumentsHash)) :
    newline ∉ strip targetRef ∧ sha256 (.obj childArguments) = .ok argumentsHash ∧
      ∃ bytes, utf8 (childMaterial (strip operationId) childIndex (strip targetRef)
        argumentsHash) = .ok bytes ∧ child = text "toolchild_v1_" ++ Sha256.hexdigest bytes := by
  simp only [toolChildOperationId, bind_eq_ok, require_eq_ok] at h
  obtain ⟨-, -, -, -, -, htarget, hash, hhash, bytes, hbytes, h⟩ := h
  cases h
  exact ⟨newline_notMem_opaqueRef htarget, hhash, bytes, hbytes, rfl⟩

theorem toolChildOperationId_inj {parent parent' target target' : Str} {n n' : Nat}
    {arguments arguments' : List (Str × Json)} {child child' hash hash' : Str}
    (h : toolChildOperationId parent n target arguments = .ok (child, hash))
    (h' : toolChildOperationId parent' n' target' arguments' = .ok (child', hash'))
    (hfree : CollisionFree (childMessages parent n target arguments hash ++
      childMessages parent' n' target' arguments' hash')) :
    child = child' ↔
      strip parent = strip parent' ∧ n = n' ∧ strip target = strip target' ∧
        canonicalJson (.obj arguments) = canonicalJson (.obj arguments') := by
  obtain ⟨htarget, hargs, bytes, hbytes, rfl⟩ := toolChildOperationId_eq_ok h
  obtain ⟨htarget', hargs', bytes', hbytes', rfl⟩ := toolChildOperationId_eq_ok h'
  have hmem := mem_messageOf (bind_eq_ok.2 ⟨_, rfl, hbytes⟩)
  have hmem' := mem_messageOf (bind_eq_ok.2 ⟨_, rfl, hbytes'⟩)
  have hcanonical := sha256_inj hfree hargs hargs'
    (fun m hm => List.mem_append_left _ (List.mem_append_left _ hm))
    (fun m hm => List.mem_append_right _ (List.mem_append_left _ hm))
  rw [List.append_cancel_left_eq, digest_inj hfree hbytes hbytes'
      (List.mem_append_left _ (List.mem_append_right _ hmem))
      (List.mem_append_right _ (List.mem_append_right _ hmem')),
    childMaterial_inj htarget htarget' (newline_notMem_sha256 hargs)
      (newline_notMem_sha256 hargs'), hcanonical]

/-- Where SHA-256 has no collision among the hashed messages, two operations have one identifier if
and only if all that is hashed agrees, and so have two children. -/
theorem operationIds_inj :
    (∀ {root root' toolId toolId' : Str} {version version' ordinal ordinal' : Int}
      {arguments arguments' : List (Str × Json)} {i i' : OperationIdentity},
      toolOperationId root toolId version ordinal arguments = .ok i →
      toolOperationId root' toolId' version' ordinal' arguments' = .ok i' →
      CollisionFree (operationMessages root toolId version ordinal i ++
        operationMessages root' toolId' version' ordinal' i') →
      (i.operationId = i'.operationId ↔
        strip root = strip root' ∧ fold toolId = fold toolId' ∧ version = version' ∧
          ordinal = ordinal' ∧
          canonicalJson (.obj i.arguments) = canonicalJson (.obj i'.arguments))) ∧
    (∀ {parent parent' target target' : Str} {n n' : Nat} {arguments arguments' : List (Str × Json)}
      {child child' hash hash' : Str},
      toolChildOperationId parent n target arguments = .ok (child, hash) →
      toolChildOperationId parent' n' target' arguments' = .ok (child', hash') →
      CollisionFree (childMessages parent n target arguments hash ++
        childMessages parent' n' target' arguments' hash') →
      (child = child' ↔
        strip parent = strip parent' ∧ n = n' ∧ strip target = strip target' ∧
          canonicalJson (.obj arguments) = canonicalJson (.obj arguments'))) :=
  ⟨toolOperationId_inj, toolChildOperationId_inj⟩

end Children

section Samples

deriving instance DecidableEq for OperationIdentity

omit [PythonText] in
theorem collisionFree_iff {messages : List (List Nat)} : CollisionFree messages ↔
    ∀ m ∈ messages, ∀ m' ∈ messages, Sha256.hexdigest m = Sha256.hexdigest m' → m = m' :=
  ⟨fun h _ hm _ hm' => h hm hm', fun h m hm m' hm' => h m hm m' hm'⟩

omit [PythonText] in
instance (messages : List (List Nat)) : Decidable (CollisionFree messages) :=
  decidable_of_iff _ collisionFree_iff.symm

def milk : List (Str × Json) := [("title", .str "Milk")]

/-- The hash of the canonical text of the arguments. -/
def milkHash : Str := "ddbae99e16e5060d20f39caf1951b38221eec7f4217bece0b9f7055fc42f4541"

/-- The hash of an operation on them, its first and second call. -/
def milkOperations : Str × Str :=
  ("019d5a84728a3331b21f46ec75dbbbe06ccc2936a1775ca5f2b74b5437afab44",
    "020bf6964698af157fb164ddd3333ce84fb2b60edc374e07ad6d950f7511cb23")

/-- The hashes of two children of the first. -/
def milkChildren : Str × Str :=
  ("4909525297f60fb9182745296d7afb8487fe3a33de357f1f54a1b1389d667870",
    "f5b8e8bc0c6ceff5a0db8d9a0098e9a74260fad5fa7d9f1ea83bbb7363650839")

def milkIdentity (hash : Str) : OperationIdentity := ⟨text "toolop_v1_" ++ hash, milkHash, milk⟩

omit [PythonText] in
theorem operationIds_inj_milk :
    ((milkIdentity milkOperations.1).operationId = (milkIdentity milkOperations.2).operationId ↔
      strip "turn-1" = strip "turn-1" ∧
        @fold asciiText "lists.get_collection" = @fold asciiText "lists.get_collection" ∧
        (1 : Int) = 1 ∧ (1 : Int) = 2 ∧
        @canonicalJson asciiText (.obj milk) = @canonicalJson asciiText (.obj milk)) ∧
    (text "toolchild_v1_" ++ milkChildren.1 = text "toolchild_v1_" ++ milkChildren.2 ↔
      strip (milkIdentity milkOperations.1).operationId =
          strip (milkIdentity milkOperations.1).operationId ∧ 1 = 2 ∧
        strip "message-1" = strip "message-1" ∧
        @canonicalJson asciiText (.obj milk) = @canonicalJson asciiText (.obj milk)) := by
  have hfirst : @toolOperationId asciiText "turn-1" "lists.get_collection" 1 1 milk =
      .ok (milkIdentity milkOperations.1) := by decide +kernel
  have hsecond : @toolOperationId asciiText "turn-1" "lists.get_collection" 1 2 milk =
      .ok (milkIdentity milkOperations.2) := by decide +kernel
  have hchild : @toolChildOperationId asciiText (milkIdentity milkOperations.1).operationId 1
      "message-1" milk = .ok (text "toolchild_v1_" ++ milkChildren.1, milkHash) := by
    decide +kernel
  have hother : @toolChildOperationId asciiText (milkIdentity milkOperations.1).operationId 2
      "message-1" milk = .ok (text "toolchild_v1_" ++ milkChildren.2, milkHash) := by
    decide +kernel
  exact ⟨(@operationIds_inj asciiText).1 hfirst hsecond (by decide +kernel),
    (@operationIds_inj asciiText).2 hchild hother (by decide +kernel)⟩

end Samples

end HardyAI.Skills
