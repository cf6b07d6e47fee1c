import HardyAI.Core.MainToolLoop
import HardyAI.Foundation.RunPatterns

/-! The links of an answer that follows observations from outside. -/

open Foundation Foundation.Json Foundation.RunPattern

namespace HardyAI.Core

section Urls

structure SplitUrl where
  scheme : Str
  hostname : Option Str
  username : Option Str
  password : Option Str

/-- The readers of URLs and of network addresses. -/
class UrlText where
  /-- `urlsplit` with a look at the port, or `none` for a `ValueError`. -/
  urlsplit : Str → Option SplitUrl
  /-- `ipaddress.ip_address(·).is_global`, or `none` for a `ValueError`. -/
  addressIsGlobal : Str → Option Bool

variable [PythonText] [UrlText]

/-- `_is_safe_public_answer_url`. -/
def isSafePublicAnswerUrl (value : Str) : Bool :=
  if value = [] || decide (2048 < value.length) || value.any fun c => decide (c.val ≤ 32) then false
  else
    match UrlText.urlsplit value with
    | none => false
    | some parsed =>
      if PythonText.casefold parsed.scheme ∉ [text "http", text "https"] ||
          (parsed.hostname.getD []).isEmpty then false
      else if parsed.username.isSome || parsed.password.isSome then false
      else
        let hostname := PythonText.casefold
          ((parsed.hostname.getD []).rdropWhile fun c => c == codePoint '.')
        if hostname = text "localhost" || (text ".localhost").isSuffixOf hostname ||
            (text ".local").isSuffixOf hostname then false
        else (UrlText.addressIsGlobal hostname).getD true

def isUrlKey (key : Str) : Bool := PythonText.casefold (strip key) = text "url"

mutual

/-- `_collect_safe_url_fields`. -/
def collectSafeUrlFields : Json → List Str
  | .obj fields => collectSafeUrlEntries fields
  | .arr items => collectSafeUrlItems items
  | .null | .bool _ | .int _ | .float _ | .str _ => []

def collectSafeUrlItems : List Json → List Str
  | [] => []
  | child :: rest => collectSafeUrlFields child ++ collectSafeUrlItems rest

def collectSafeUrlEntries : List (Str × Json) → List Str
  | [] => []
  | (key, .str s) :: rest =>
    (if isUrlKey key && isSafePublicAnswerUrl (strip s) then [strip s] else []) ++
      collectSafeUrlEntries rest
  | (_, child) :: rest => collectSafeUrlFields child ++ collectSafeUrlEntries rest

end

def untrustedOf (observations : List ToolObservation) : List ToolObservation :=
  observations.filter ToolObservation.untrusted

/-- `allowed_urls`. -/
def allowedUrls (observations : List ToolObservation) : List Str :=
  (untrustedOf observations).flatMap fun o => collectSafeUrlFields (.obj o.payload)

/-- A value holds the text in a field that is named a URL. -/
inductive HasUrlField : Json → Str → Prop
  | here {fields key s} : (key, .str s) ∈ fields → isUrlKey key = true → HasUrlField (.obj fields) s
  | field {fields key child s} : (key, child) ∈ fields → HasUrlField child s →
      HasUrlField (.obj fields) s
  | item {items child s} : child ∈ items → HasUrlField child s → HasUrlField (.arr items) s

def HoldsSafeUrl (value : Json) (url : Str) : Prop :=
  ∃ s, HasUrlField value s ∧ url = strip s ∧ isSafePublicAnswerUrl url = true

/-- A safe public URL out of a field of an untrusted observation. -/
def Verified (observations : List ToolObservation) (url : Str) : Prop :=
  ∃ o ∈ observations, o.untrusted = true ∧ HoldsSafeUrl (.obj o.payload) url

end Urls

section Links

/-- What a character of the pattern stands for when case is ignored. -/
def ignoresCase (c : Char) (x : CodePoint) : Bool :=
  asciiLower x = codePoint c || (c = 's' && x.val = 0x17F)

def endsLink (c : CodePoint) : Bool := isSpace c || (text ")>]\x7d").contains c

def isTrailing (c : CodePoint) : Bool := (text ".,;:!?").contains c

/-- A character under a letter, a colon or a slash is that one, its capital or the long `s`. -/
theorem val_of_ignoresCase {c : Char} {x : CodePoint} (h : ignoresCase c x = true) :
    x.val = c.toNat ∨ x.val + 32 = c.toNat ∧ 97 ≤ c.toNat ∨ c = 's' ∧ x.val = 0x17F := by
  simp only [ignoresCase, Bool.or_eq_true, decide_eq_true_eq, Bool.and_eq_true] at h
  rcases h with hlower | hlong
  · have hval : (asciiLower x).val = c.toNat := by rw [hlower]; rfl
    unfold asciiLower at hval
    split at hval
    · next hupper =>
      have hsum : x.val + 32 = c.toNat := hval
      exact .inr (.inl ⟨hsum, by omega⟩)
    · exact .inl hval
  · exact .inr (.inr hlong)

theorem val_of_endsLink {x : CodePoint} (h : endsLink x = true) :
    isSpace x = true ∨ x.val ∈ [0x29, 0x3E, 0x5D, 0x7D] := by
  rw [endsLink, Bool.or_eq_true, List.contains_iff_mem] at h
  exact h.imp_right fun hmem => List.mem_map_of_mem (f := Fin.val) hmem

def headCharacters : List Char := ['h', 't', 'p', 's', ':', '/']

/-- The characters under a head have these numbers. -/
theorem val_of_headCharacter {c : Char} {x : CodePoint} (hc : c ∈ headCharacters)
    (h : ignoresCase c x = true) :
    x.val ∈ [0x2F, 0x3A, 0x48, 0x50, 0x53, 0x54, 0x68, 0x70, 0x73, 0x74, 0x17F] := by
  have hval := val_of_ignoresCase h
  simp only [List.mem_cons, List.not_mem_nil, or_false]
  simp only [headCharacters, List.mem_cons, List.not_mem_nil, or_false] at hc
  rcases hc with rfl | rfl | rfl | rfl | rfl | rfl <;>
  · simp only [Char.reduceToNat, Char.reduceEq, false_and, true_and, or_false] at hval
    omega

theorem ignoresCase_of_ends {c : Char} {x : CodePoint} (hc : c ∈ headCharacters)
    (hx : endsLink x = true) : ignoresCase c x = false := by
  rw [← Bool.not_eq_true]
  intro h
  have hval := val_of_headCharacter hc h
  have hends := val_of_endsLink hx
  simp only [isSpace, Bool.or_eq_true, Bool.and_eq_true, decide_eq_true_eq, beq_iff_eq,
    List.mem_cons, List.not_mem_nil, or_false] at hends hval
  omega

def linkHeads : List (List Char) := ["https://".toList, "http://".toList]

theorem mem_headCharacters {head : List Char} (hhead : head ∈ linkHeads) {c : Char}
    (hc : c ∈ head) : c ∈ headCharacters := by
  have hall : ∀ head ∈ linkHeads, ∀ c ∈ head, c ∈ headCharacters := by
    simp [linkHeads, headCharacters]
  exact hall head hhead c hc

/-- `_ANSWER_URL_PATTERN`. -/
def answerUrlPattern : RunPattern CodePoint where
  heads := linkHeads.map fun head => head.map ignoresCase
  ends := endsLink
  head_ne_nil := by
    intro head hhead
    obtain ⟨cs, hcs, rfl⟩ := List.mem_map.1 hhead
    rw [Ne, List.map_eq_nil_iff]
    have hall : ∀ head ∈ linkHeads, head ≠ [] := by decide
    exact hall cs hcs
  head_of_ends := by
    intro head hhead p hp x hx
    obtain ⟨cs, hcs, rfl⟩ := List.mem_map.1 hhead
    obtain ⟨c, hc, rfl⟩ := List.mem_map.1 hp
    exact ignoresCase_of_ends (mem_headCharacters hcs hc) hx

/-- `candidate`. -/
def stripTrailing (raw : Str) : Str := raw.rdropWhile isTrailing

def removedLink : Str := text "[unverified link removed]"

def replaceLink (allowed : List Str) (raw : Str) : Str :=
  if stripTrailing raw ∈ allowed then raw else removedLink ++ raw.drop (stripTrailing raw).length

variable [PythonText] [UrlText]

/-- `_sanitize_untrusted_answer_links`. -/
def sanitizeUntrustedAnswerLinks (message : Str) (observations : List ToolObservation) : Str :=
  if untrustedOf observations = [] then message
  else answerUrlPattern.sub (replaceLink (allowedUrls observations)) message

/-- What is promised of the links of an answer. -/
structure LinksVerified (message : Str) (observations : List ToolObservation) : Prop where
  sound : ∀ raw ∈ answerUrlPattern.found (sanitizeUntrustedAnswerLinks message observations),
    Verified observations (stripTrailing raw)
  again : sanitizeUntrustedAnswerLinks (sanitizeUntrustedAnswerLinks message observations)
    observations = sanitizeUntrustedAnswerLinks message observations
  survives : ∀ x c url d y, message = x ++ c :: (url ++ d :: y) → isSpace c = true →
    isSpace d = true → Verified observations url →
    sanitizeUntrustedAnswerLinks message observations =
      sanitizeUntrustedAnswerLinks x observations ++
        c :: (url ++ d :: sanitizeUntrustedAnswerLinks y observations)

end Links

section Redaction

/-- A character that is neither `h` nor `H` begins no link. -/
theorem quiet_of_val {x : CodePoint} (h : x.val ≠ 0x68 ∧ x.val ≠ 0x48) : answerUrlPattern.Quiet x := by
  intro head hhead p hp
  obtain ⟨cs, hcs, rfl⟩ := List.mem_map.1 hhead
  have hfirst : ∀ cs ∈ linkHeads, cs.head? = some 'h' := by decide
  rw [List.head?_map, hfirst cs hcs] at hp
  obtain rfl := Option.some.inj hp
  rw [← Bool.not_eq_true]
  intro hmatch
  have hval := val_of_ignoresCase hmatch
  simp only [Char.reduceToNat, Char.reduceEq, false_and, or_false] at hval
  omega

theorem quiet_of_text {s : String} (hs : ∀ c ∈ s.toList, c.toNat ≠ 0x68 ∧ c.toNat ≠ 0x48)
    {x : CodePoint} (hx : x ∈ text s) : answerUrlPattern.Quiet x := by
  obtain ⟨c, hc, rfl⟩ := List.mem_map.1 hx
  exact quiet_of_val (hs c hc)

theorem drop_stripTrailing (raw : Str) :
    raw.drop (stripTrailing raw).length = raw.rtakeWhile isTrailing := by
  have hsplit : raw.rdropWhile isTrailing ++ raw.rtakeWhile isTrailing = raw :=
    List.rdropWhile_append_rtakeWhile
  calc raw.drop (stripTrailing raw).length
      = (raw.rdropWhile isTrailing ++ raw.rtakeWhile isTrailing).drop
          (raw.rdropWhile isTrailing).length := by rw [hsplit, stripTrailing]
    _ = raw.rtakeWhile isTrailing := List.drop_left

/-- The replacement of the links that are not allowed. -/
def linkRedaction (allowed : List Str) : Redaction answerUrlPattern where
  kept raw := decide (stripTrailing raw ∈ allowed)
  mark := codePoint '['
  rest raw := text "unverified link removed]" ++ raw.drop (stripTrailing raw).length
  marks := by
    intro head hhead p hp
    obtain ⟨cs, hcs, rfl⟩ := List.mem_map.1 hhead
    obtain ⟨c, hc, rfl⟩ := List.mem_map.1 hp
    rw [← Bool.not_eq_true]
    intro hmatch
    have hval := val_of_headCharacter (mem_headCharacters hcs hc) hmatch
    have hbracket : (codePoint '[').val = 0x5B := rfl
    rw [hbracket] at hval
    revert hval
    decide
  quiet raw c hc := by
    rcases List.mem_append.1 hc with hc | hc
    · have hall : ∀ c ∈ "unverified link removed]".toList, c.toNat ≠ 0x68 ∧ c.toNat ≠ 0x48 := by
        simp
      exact quiet_of_text hall hc
    · rw [drop_stripTrailing] at hc
      have htrailing : c ∈ text ".,;:!?" := List.contains_iff_mem.1 (List.mem_rtakeWhile_imp hc)
      have hall : ∀ c ∈ ".,;:!?".toList, c.toNat ≠ 0x68 ∧ c.toNat ≠ 0x48 := by simp
      exact quiet_of_text hall htrailing

variable {allowed : List Str} {raw : Str}

theorem linkRedaction_apply : (linkRedaction allowed).apply = replaceLink allowed := by
  funext raw
  by_cases h : stripTrailing raw ∈ allowed
  · rw [replaceLink, if_pos h]
    exact if_pos (decide_eq_true h)
  · rw [replaceLink, if_neg h]
    exact if_neg fun hkept => h (of_decide_eq_true hkept)

theorem linkRedaction_kept : (linkRedaction allowed).kept raw = true ↔ stripTrailing raw ∈ allowed :=
  decide_eq_true_iff

end Redaction

section Collecting

variable [PythonText] [UrlText] {value child : Json} {items : List Json}
  {fields rest : List (Str × Json)} {key s url : Str} {observations : List ToolObservation}

theorem mem_collectSafeUrlItems : url ∈ collectSafeUrlItems items ↔
    ∃ child ∈ items, url ∈ collectSafeUrlFields child := by
  induction items with
  | nil => simp [collectSafeUrlItems]
  | cons child rest ih =>
    rw [collectSafeUrlItems, List.mem_append, ih, List.exists_mem_cons_iff]

/-- The URL that stands directly under a key. -/
def directUrl (key : Str) : Json → List Str
  | .str s => if isUrlKey key && isSafePublicAnswerUrl (strip s) then [strip s] else []
  | .null | .bool _ | .int _ | .float _ | .arr _ | .obj _ => []

theorem collectSafeUrlEntries_cons : collectSafeUrlEntries ((key, child) :: fields) =
    directUrl key child ++ (collectSafeUrlFields child ++ collectSafeUrlEntries fields) := by
  cases child <;> rfl

theorem mem_directUrl : url ∈ directUrl key child ↔
    ∃ s, child = .str s ∧ isUrlKey key = true ∧ url = strip s ∧ isSafePublicAnswerUrl url = true := by
  cases child with
  | str s =>
    simp only [directUrl, Json.str.injEq, exists_eq_left']
    split
    · next h =>
      rw [Bool.and_eq_true] at h
      rw [List.mem_singleton]
      exact ⟨fun hurl => ⟨h.1, hurl, by rw [hurl]; exact h.2⟩, fun hurl => hurl.2.1⟩
    · next h =>
      rw [Bool.and_eq_true] at h
      refine iff_of_false List.not_mem_nil fun hurl => h ⟨hurl.1, ?_⟩
      rw [← hurl.2.1]
      exact hurl.2.2
  | null | bool | int | float | arr | obj =>
    exact iff_of_false List.not_mem_nil fun ⟨_, hshape, _⟩ => nomatch hshape

theorem mem_collectSafeUrlEntries : url ∈ collectSafeUrlEntries fields ↔
    ∃ p ∈ fields, url ∈ directUrl p.1 p.2 ∨ url ∈ collectSafeUrlFields p.2 := by
  induction fields with
  | nil => simp [collectSafeUrlEntries]
  | cons p rest ih =>
    obtain ⟨key, child⟩ := p
    rw [collectSafeUrlEntries_cons, List.mem_append, List.mem_append, ih, List.exists_mem_cons_iff,
      or_assoc]

/-- The collected URLs are the safe ones that some field holds, at any depth. -/
theorem mem_collectSafeUrlFields : url ∈ collectSafeUrlFields value ↔ HoldsSafeUrl value url := by
  induction value using Json.induct with
  | null | bool | int | float | str =>
    exact iff_of_false List.not_mem_nil fun ⟨_, hfield, _⟩ => nomatch hfield
  | arr items ih =>
    rw [collectSafeUrlFields, mem_collectSafeUrlItems]
    constructor
    · rintro ⟨child, hchild, hurl⟩
      obtain ⟨s, hfield, hsafe⟩ := (ih child hchild).1 hurl
      exact ⟨s, .item hchild hfield, hsafe⟩
    · rintro ⟨s, hfield, hsafe⟩
      cases hfield with
      | item hchild hfield => exact ⟨_, hchild, (ih _ hchild).2 ⟨s, hfield, hsafe⟩⟩
  | obj fields ih =>
    rw [collectSafeUrlFields, mem_collectSafeUrlEntries]
    constructor
    · rintro ⟨⟨key, child⟩, hp, hurl⟩
      rcases hurl with hdirect | hdeep
      · obtain ⟨s, rfl, hkey, hsafe⟩ := mem_directUrl.1 hdirect
        exact ⟨s, .here hp hkey, hsafe⟩
      · obtain ⟨s, hfield, hsafe⟩ := (ih _ hp).1 hdeep
        exact ⟨s, .field hp hfield, hsafe⟩
    · rintro ⟨s, hfield, hsafe⟩
      cases hfield with
      | here hp hkey => exact ⟨_, hp, .inl (mem_directUrl.2 ⟨s, rfl, hkey, hsafe⟩)⟩
      | field hp hfield => exact ⟨_, hp, .inr ((ih _ hp).2 ⟨s, hfield, hsafe⟩)⟩

theorem mem_allowedUrls : url ∈ allowedUrls observations ↔ Verified observations url := by
  simp only [allowedUrls, untrustedOf, List.mem_flatMap, List.mem_filter, mem_collectSafeUrlFields,
    Verified, and_assoc]

end Collecting

section Promises

theorem endsLink_of_isSpace {c : CodePoint} (h : isSpace c = true) : endsLink c = true := by
  rw [endsLink, h, Bool.true_or]

variable [PythonText] [UrlText] {observations : List ToolObservation} {message url : Str}

theorem sanitize_of_untrusted (h : untrustedOf observations ≠ []) (message : Str) :
    sanitizeUntrustedAnswerLinks message observations =
      answerUrlPattern.sub (linkRedaction (allowedUrls observations)).apply message := by
  rw [sanitizeUntrustedAnswerLinks, if_neg h, linkRedaction_apply]

/-- A URL is left as it is where each link within it is, up to trailing punctuation, verified. -/
theorem sanitize_eq_self_iff (h : untrustedOf observations ≠ []) :
    sanitizeUntrustedAnswerLinks message observations = message ↔
      ∀ raw ∈ answerUrlPattern.found message, Verified observations (stripTrailing raw) := by
  rw [sanitize_of_untrusted h, sub_eq_self_iff]
  simp only [linkRedaction_kept, mem_allowedUrls]

/-- Between two ends a part of a message is worked on by itself. -/
theorem sanitize_between (h : untrustedOf observations ≠ []) {c d : CodePoint}
    (hc : isSpace c = true) (hd : isSpace d = true) (x y : Str) :
    sanitizeUntrustedAnswerLinks (x ++ c :: (url ++ d :: y)) observations =
      sanitizeUntrustedAnswerLinks x observations ++
        c :: (sanitizeUntrustedAnswerLinks url observations ++
          d :: sanitizeUntrustedAnswerLinks y observations) := by
  have hends : answerUrlPattern.ends c = true := endsLink_of_isSpace hc
  have hends' : answerUrlPattern.ends d = true := endsLink_of_isSpace hd
  simp only [sanitize_of_untrusted h]
  rw [sub_append_cons hends, sub_append_cons hends']

/-- The links that the pattern finds within a verified URL between blanks are, up to trailing
punctuation, verified themselves. -/
def FoundWhole (message : Str) (observations : List ToolObservation) : Prop :=
  ∀ x c url d y, message = x ++ c :: (url ++ d :: y) → isSpace c = true → isSpace d = true →
    Verified observations url →
      ∀ raw ∈ answerUrlPattern.found url, Verified observations (stripTrailing raw)

theorem linksVerified_iff (hsome : ∃ o ∈ observations, o.untrusted = true) :
    LinksVerified message observations ↔ FoundWhole message observations := by
  have h : untrustedOf observations ≠ [] := by
    obtain ⟨o, ho, huntrusted⟩ := hsome
    exact List.ne_nil_of_mem (List.mem_filter.2 ⟨ho, huntrusted⟩)
  constructor
  · rintro hlinks x c url d y rfl hc hd hurl
    have hsame := hlinks.survives x c url d y rfl hc hd hurl
    rw [sanitize_between h hc hd] at hsame
    have hrest := List.append_cancel_left hsame
    exact (sanitize_eq_self_iff h).1 (List.append_cancel_right (List.cons.inj hrest).2)
  · intro hwhole
    refine ⟨fun raw hraw => ?_, ?_, ?_⟩
    · rw [sanitize_of_untrusted h] at hraw
      exact mem_allowedUrls.1 (linkRedaction_kept.1 (kept_of_found_sub message raw hraw))
    · rw [sanitize_of_untrusted h, sanitize_of_untrusted h]
      exact sub_sub message
    · intro x c url d y hmessage hc hd hurl
      have hself := (sanitize_eq_self_iff h).2 (hwhole x c url d y hmessage hc hd hurl)
      rw [hmessage, sanitize_between h hc hd, hself]

end Promises

section Samples

/-- The readers for a URL whose authority is the name of a host and nothing else. -/
@[reducible] def namedHosts : UrlText where
  urlsplit value :=
    let rest := value.dropWhile fun c => c != codePoint ':'
    if (text "://").isPrefixOf rest then
      some ⟨(value.takeWhile fun c => c != codePoint ':').map asciiLower,
        some (((rest.drop 3).takeWhile fun c => c != codePoint '/').map asciiLower), none, none⟩
    else some ⟨[], none, none, none⟩
  addressIsGlobal _ := none

def foundPage (url : String) : ToolObservation where
  status := .ok
  observationRef := text "obs_1"
  payload := [("results", .arr [.obj [("url", .str (text url))]])]
  safeMessage := []
  missingFields := []
  retryable := false
  committedEffect := false
  receiptRefs := []
  reviewRefs := []
  jobRefs := []
  untrusted := true
  operationId := text "op_1"

theorem linksVerified_iff_page :
    @LinksVerified asciiText namedHosts (text "See https://lean-lang.org/learn for more.")
      [foundPage "https://lean-lang.org/learn"] := by
  refine (@linksVerified_iff asciiText namedHosts _ _ ⟨_, List.mem_singleton_self _, rfl⟩).2 ?_
  intro x c url d y _ _ _ hurl raw hraw
  have hmem := (@mem_allowedUrls asciiText namedHosts _ _).2 hurl
  have hallowed : @allowedUrls asciiText namedHosts [foundPage "https://lean-lang.org/learn"] =
      [text "https://lean-lang.org/learn"] := by decide +kernel
  have hfound : answerUrlPattern.found (text "https://lean-lang.org/learn") =
      [text "https://lean-lang.org/learn"] := by decide +kernel
  have hstrip : stripTrailing (text "https://lean-lang.org/learn") =
      text "https://lean-lang.org/learn" := by decide +kernel
  rw [hallowed, List.mem_singleton] at hmem
  rw [hmem, hfound, List.mem_singleton] at hraw
  rw [hraw, hstrip, ← hmem]
  exact hurl

/-- A page with parentheses in its address has been read, and its link is removed. -/
theorem parenthesised_link_removed :
    ¬ @LinksVerified asciiText namedHosts
      (text "See https://en.wikipedia.org/wiki/Lean_(proof_assistant) for more.")
      [foundPage "https://en.wikipedia.org/wiki/Lean_(proof_assistant)"] := by
  intro hlinks
  have hurl := (@mem_allowedUrls asciiText namedHosts
    (text "https://en.wikipedia.org/wiki/Lean_(proof_assistant)")
    [foundPage "https://en.wikipedia.org/wiki/Lean_(proof_assistant)"]).1 (by decide +kernel)
  have hsame := @LinksVerified.survives asciiText namedHosts _ _ hlinks (text "See") (codePoint ' ')
    _ (codePoint ' ') (text "for more.") (by decide +kernel) rfl rfl hurl
  revert hsame
  decide +kernel

end Samples

end HardyAI.Core
