import HardyAI.Foundation.Json
import HardyAI.Foundation.Regex

/-! The wording that lets a message be moved to the spam folder. -/

open Foundation Foundation.Json

namespace HardyAI.Email

section Patterns

def spamWords : List Str := ["spam", "junk"]

/-- `not|isn['’]?t|aren['’]?t`. -/
def denialWords : List Str :=
  ["not", "isnt", "isn't", "isn’t", "arent", "aren't", "aren’t"]

def commandWords : List Str := ["mark", "move", "send", "put", "flag", "call"]

/-- `is|are|looks? like|seems? like`. -/
def statementWords : List Str :=
  ["is", "are", "look like", "looks like", "seem like", "seems like"]

/-- `\s+`. -/
def blanks : Regex := .seq (.set isSpace) (.many isSpace)

/-- `\b(?:not|isn['’]?t|aren['’]?t)\s+(?:spam|junk)\b`. -/
def denialPattern : Regex :=
  .seq .edge (.seq (.oneOf denialWords) (.seq blanks (.seq (.oneOf spamWords) .edge)))

/-- `\b(?:mark|move|send|put|flag|call)\b.*\b(?:spam|junk)\b`. -/
def commandPattern : Regex :=
  .seq .edge (.seq (.oneOf commandWords) (.seq .edge (.seq (.many (· ≠ codePoint '\n'))
    (.seq .edge (.seq (.oneOf spamWords) .edge)))))

/-- `\b(?:is|are|looks? like|seems? like)\s+(?:spam|junk)\b`. -/
def statementPattern : Regex :=
  .seq .edge (.seq (.oneOf statementWords) (.seq blanks (.seq (.oneOf spamWords) .edge)))

variable [PythonText] [WordTable]

/-- `_is_explicit_positive_spam_request`. -/
def isExplicitPositiveSpamRequest (value : Str) : Bool :=
  let lowered := PythonText.casefold value
  if Regex.search denialPattern lowered then false
  else Regex.search (.alt commandPattern statementPattern) lowered

structure MarkSpamReply where
  status : String
  message : String
  question : String
  missingFields : List String
  deriving DecidableEq

def wordingNeeded : MarkSpamReply where
  status := "needs_clarification"
  message := "I did not queue a Gmail change because spam moves require explicit positive wording."
  question := "Name the current reference, for example: E2 is spam."
  missingFields := ["email_reference"]

/-- `_mark_spam` up to its first check; `proceed` stands for the later checks and the queue. -/
def markSpam {σ : Type} (proceed : Transaction σ MarkSpamReply) (query : Str) :
    Transaction σ MarkSpamReply := fun s =>
  if !isExplicitPositiveSpamRequest (strip query) then .ok (wordingNeeded, s) else proceed s

end Patterns

section Wording

variable [WordTable]

/-- The word stands at a place of a text where a word begins and ends. -/
structure WordAt (before word after : Str) : Prop where
  begins : Regex.isEdge before.getLast? (word ++ after).head? = true
  ends : Regex.isEdge (before ++ word).getLast? after.head? = true

/-- A word, blanks and a word for spam. -/
structure Phrase (words : List Str) (t : Str) : Prop where
  split : ∃ before word gap spam after, t = before ++ (word ++ (gap ++ (spam ++ after))) ∧
    word ∈ words ∧ gap ≠ [] ∧ (∀ c ∈ gap, isSpace c = true) ∧ spam ∈ spamWords ∧
    Regex.isEdge before.getLast? (word ++ (gap ++ (spam ++ after))).head? = true ∧
    Regex.isEdge (before ++ (word ++ (gap ++ spam))).getLast? after.head? = true

/-- A command word, and after it a word for spam, where the text between them may be of some kind
only. -/
def Commands (between : Str → Prop) (t : Str) : Prop :=
  ∃ before command gap spam after, t = before ++ (command ++ (gap ++ (spam ++ after))) ∧
    command ∈ commandWords ∧ between gap ∧ spam ∈ spamWords ∧
    WordAt before command (gap ++ (spam ++ after)) ∧
    WordAt (before ++ (command ++ gap)) spam after

def OneLine (gap : Str) : Prop := ∀ c ∈ gap, c ≠ codePoint '\n'

def negations : List Str := ["do not", "don't", "don’t", "dont", "never", "stop"]

/-- A negation, and somewhere after it a command to mark spam. -/
def NegatedCommand (t : Str) : Prop :=
  ∃ before negation rest, t = before ++ (negation ++ rest) ∧ negation ∈ negations ∧
    WordAt before negation rest ∧
    ∃ between command gap spam after, rest = between ++ (command ++ (gap ++ (spam ++ after))) ∧
      command ∈ commandWords ∧ spam ∈ spamWords ∧
      WordAt (before ++ (negation ++ between)) command (gap ++ (spam ++ after)) ∧
      WordAt (before ++ (negation ++ (between ++ (command ++ gap)))) spam after

theorem spans_blanks {before : Option CodePoint} {w after : Str} :
    Regex.Spans blanks before w after ↔ w ≠ [] ∧ ∀ c ∈ w, isSpace c = true := by
  constructor
  · rintro ⟨u, v, rfl, ⟨c, rfl, hc⟩, hv⟩
    exact ⟨List.cons_ne_nil c v, List.forall_mem_cons.2 ⟨hc, hv⟩⟩
  · rintro ⟨hne, hw⟩
    cases w with
    | nil => exact absurd rfl hne
    | cons c rest =>
      rw [List.forall_mem_cons] at hw
      exact ⟨[c], rest, rfl, ⟨c, rfl, hw.1⟩, hw.2⟩

/-- A pattern of a word, blanks and a word for spam finds the phrases of such words. -/
theorem search_phrase {words : List Str} {t : Str} :
    Regex.search (.seq .edge (.seq (.oneOf words) (.seq blanks (.seq (.oneOf spamWords) .edge)))) t =
      true ↔ Phrase words t := by
  rw [Regex.search_iff]
  constructor
  · rintro ⟨before, -, after, rfl, u, -, rfl, ⟨rfl, hfirst⟩, word, -, rfl, hword, gap, -, rfl, hgap,
      spam, v, rfl, hspam, rfl, hlast⟩
    obtain ⟨hne, hspaces⟩ := spans_blanks.1 hgap
    refine ⟨before, word, gap, spam, after, ?_, hword, hne, hspaces, hspam, ?_, ?_⟩
    · simp only [List.nil_append, List.append_nil, List.append_assoc]
    · simpa only [List.nil_append, List.append_nil, List.append_assoc] using hfirst
    · simpa only [Regex.lastOf_nil, Regex.lastOf_getLast?, List.nil_append, List.append_nil,
        List.append_assoc] using hlast
  · rintro ⟨before, word, gap, spam, after, rfl, hword, hne, hspaces, hspam, hfirst, hlast⟩
    refine ⟨before, word ++ (gap ++ spam), after, by simp only [List.append_assoc], [],
      word ++ (gap ++ spam), rfl, ⟨rfl, by simpa only [List.append_assoc] using hfirst⟩, word,
      gap ++ spam, rfl, hword, gap, spam, rfl, spans_blanks.2 ⟨hne, hspaces⟩, spam, [],
      (List.append_nil spam).symm, hspam, rfl, ?_⟩
    simpa only [Regex.lastOf_nil, Regex.lastOf_getLast?, List.nil_append, List.append_nil,
      List.append_assoc] using hlast

theorem search_command {t : Str} :
    Regex.search commandPattern t = true ↔ Commands OneLine t := by
  rw [commandPattern, Regex.search_iff]
  constructor
  · rintro ⟨before, -, after, rfl, u, -, rfl, ⟨rfl, hfirst⟩, command, -, rfl, hcommand, u', -, rfl,
      ⟨rfl, hend⟩, gap, -, rfl, hgap, u'', -, rfl, ⟨rfl, hbegin⟩, spam, v, rfl, hspam, rfl, hlast⟩
    refine ⟨before, command, gap, spam, after, ?_, hcommand, fun c hc => by simpa using hgap c hc,
      hspam, ⟨?_, ?_⟩, ⟨?_, ?_⟩⟩
    · simp only [List.nil_append, List.append_nil, List.append_assoc]
    · simpa only [List.nil_append, List.append_nil, List.append_assoc] using hfirst
    · simpa only [Regex.lastOf_nil, Regex.lastOf_getLast?, List.nil_append, List.append_nil,
        List.append_assoc] using hend
    · simpa only [Regex.lastOf_nil, Regex.lastOf_getLast?, List.nil_append, List.append_nil,
        List.append_assoc] using hbegin
    · simpa only [Regex.lastOf_nil, Regex.lastOf_getLast?, List.nil_append, List.append_nil,
        List.append_assoc] using hlast
  · rintro ⟨before, command, gap, spam, after, rfl, hcommand, hgap, hspam, ⟨hfirst, hend⟩,
      ⟨hbegin, hlast⟩⟩
    refine ⟨before, command ++ (gap ++ spam), after, by simp only [List.append_assoc], [],
      command ++ (gap ++ spam), rfl, ⟨rfl, by simpa only [List.append_assoc] using hfirst⟩, command,
      gap ++ spam, rfl, hcommand, [], gap ++ spam, rfl, ⟨rfl, ?_⟩, gap, spam, rfl,
      fun c hc => by simpa using hgap c hc, [], spam, rfl, ⟨rfl, ?_⟩, spam, [],
      (List.append_nil spam).symm, hspam, rfl, ?_⟩
    · simpa only [Regex.lastOf_nil, Regex.lastOf_getLast?, List.append_assoc] using hend
    · simpa only [Regex.lastOf_nil, Regex.lastOf_getLast?, List.append_assoc] using hbegin
    · simpa only [Regex.lastOf_nil, Regex.lastOf_getLast?, List.nil_append, List.append_nil,
        List.append_assoc] using hlast

theorem search_alt {r r' : Regex} {t : Str} :
    Regex.search (.alt r r') t = true ↔ Regex.search r t = true ∨ Regex.search r' t = true := by
  rw [Regex.search_iff, Regex.search_iff, Regex.search_iff]
  constructor
  · rintro ⟨front, w, after, ht, hw | hw⟩
    · exact .inl ⟨front, w, after, ht, hw⟩
    · exact .inr ⟨front, w, after, ht, hw⟩
  · rintro (⟨front, w, after, ht, hw⟩ | ⟨front, w, after, ht, hw⟩)
    · exact ⟨front, w, after, ht, .inl hw⟩
    · exact ⟨front, w, after, ht, .inr hw⟩

/-- A command to mark spam with no negation before it. -/
def PlainCommand (t : Str) : Prop :=
  ∃ before command gap spam after, t = before ++ (command ++ (gap ++ (spam ++ after))) ∧
    command ∈ commandWords ∧ spam ∈ spamWords ∧
    ¬∃ front negation rest, before = front ++ (negation ++ rest) ∧ negation ∈ negations ∧
      WordAt front negation (rest ++ (command ++ (gap ++ (spam ++ after))))

/-- The text asks not to mark spam, and says nothing else of spam. -/
structure NegatedOnly (t : Str) : Prop where
  negated : NegatedCommand t
  statement : ¬Phrase statementWords t
  command : ¬PlainCommand t

end Wording

section Gate

variable [PythonText] [WordTable]

theorem isExplicitPositiveSpamRequest_iff {value : Str} :
    isExplicitPositiveSpamRequest value = true ↔
      ¬Phrase denialWords (PythonText.casefold value) ∧
        (Commands OneLine (PythonText.casefold value) ∨
          Phrase statementWords (PythonText.casefold value)) := by
  have hdenial : Regex.search denialPattern (PythonText.casefold value) = true ↔
      Phrase denialWords (PythonText.casefold value) := search_phrase
  have hstatement : Regex.search statementPattern (PythonText.casefold value) = true ↔
      Phrase statementWords (PythonText.casefold value) := search_phrase
  rw [isExplicitPositiveSpamRequest, ← hdenial, ← hstatement, ← search_command]
  split
  · next h => simp only [h, Bool.false_eq_true, not_true_eq_false, false_and]
  · next h => rw [search_alt, and_iff_right h]

/-- Nothing is queued where the request is not explicit. -/
theorem markSpam_of_not_explicit {query : Str}
    (h : isExplicitPositiveSpamRequest (strip query) = false) {σ : Type}
    (proceed : Transaction σ MarkSpamReply) (s : σ) :
    markSpam proceed query s = .ok (wordingNeeded, s) := by
  rw [markSpam, h]
  rfl

theorem markSpam_of_explicit {query : Str}
    (h : isExplicitPositiveSpamRequest (strip query) = true) {σ : Type}
    (proceed : Transaction σ MarkSpamReply) (s : σ) : markSpam proceed query s = proceed s := by
  rw [markSpam, h]
  rfl

theorem negated_only_refused {query : Str} (h : NegatedOnly (PythonText.casefold (strip query))) :
    (isExplicitPositiveSpamRequest (strip query) = false ∧
        ∀ (σ : Type) (proceed : Transaction σ MarkSpamReply) (s : σ),
          markSpam proceed query s = .ok (wordingNeeded, s)) ↔
      Phrase denialWords (PythonText.casefold (strip query)) ∨
        ¬Commands OneLine (PythonText.casefold (strip query)) := by
  have hexplicit : isExplicitPositiveSpamRequest (strip query) = true ↔
      ¬Phrase denialWords (PythonText.casefold (strip query)) ∧
        (Commands OneLine (PythonText.casefold (strip query)) ∨
          Phrase statementWords (PythonText.casefold (strip query))) :=
    isExplicitPositiveSpamRequest_iff
  constructor
  · rintro ⟨hrefused, -⟩
    rw [hrefused] at hexplicit
    by_contra hneither
    rw [not_or, not_not] at hneither
    exact Bool.false_ne_true (hexplicit.2 ⟨hneither.1, .inl hneither.2⟩)
  · intro hcondition
    have hrefused : isExplicitPositiveSpamRequest (strip query) = false := by
      rw [← Bool.not_eq_true, hexplicit]
      rintro ⟨hdenial, hcommand | hstatement⟩
      · exact hcondition.elim hdenial fun hnone => hnone hcommand
      · exact h.statement hstatement
    exact ⟨hrefused, fun _ proceed s => markSpam_of_not_explicit hrefused proceed s⟩

end Gate

section Samples

/-- A text whose only command word is at one place has no plain command if a negation is before
that place. -/
theorem not_plainCommand [WordTable] {front negation rest after : Str}
    (hnegation : negation ∈ negations)
    (honce : ∀ k ≤ (front ++ (negation ++ (rest ++ after))).length,
      (commandWords.any fun w =>
        w.isPrefixOf ((front ++ (negation ++ (rest ++ after))).drop k)) = true →
      k = (front ++ (negation ++ rest)).length)
    (hword : WordAt front negation (rest ++ after)) :
    ¬PlainCommand (front ++ (negation ++ (rest ++ after))) := by
  rintro ⟨before, command, gap, spam, last, ht, hcommand, -, hplain⟩
  have hdrop : (front ++ (negation ++ (rest ++ after))).drop before.length =
      command ++ (gap ++ (spam ++ last)) := by rw [ht, List.drop_left]
  have hlength : before.length ≤ (front ++ (negation ++ (rest ++ after))).length := by
    rw [ht, List.length_append]
    omega
  have hplace : before.length = (front ++ (negation ++ rest)).length := by
    refine honce before.length hlength (List.any_eq_true.2 ⟨command, hcommand, ?_⟩)
    rw [hdrop, List.isPrefixOf_iff_prefix]
    exact List.prefix_append _ _
  have hsplit : (front ++ (negation ++ rest)) ++ after =
      before ++ (command ++ (gap ++ (spam ++ last))) := by
    simpa only [List.append_assoc] using ht
  obtain ⟨rfl, hafter⟩ := List.append_inj hsplit hplace.symm
  exact hplain ⟨front, negation, rest, rfl, hnegation, by rwa [← hafter]⟩

def unwantedRequest : Str := "do not mark e2 as spam"

def deniedRequest : Str := "do not mark e2 as junk, it is not spam"

/-- Both requests name the command once, behind a negation. -/
theorem requests_negated :
    @NegatedOnly asciiWords (asciiText.casefold (strip unwantedRequest)) ∧
      @NegatedOnly asciiWords (asciiText.casefold (strip deniedRequest)) := by
  let := asciiWords
  have hunwanted : asciiText.casefold (strip unwantedRequest) =
      [] ++ (text "do not" ++ (text " " ++ text "mark e2 as spam")) := by decide +kernel
  have hdenied : asciiText.casefold (strip deniedRequest) =
      [] ++ (text "do not" ++ (text " " ++ text "mark e2 as junk, it is not spam")) := by
    decide +kernel
  constructor
  · refine ⟨⟨[], "do not", " mark e2 as spam", by decide +kernel, by decide +kernel, ?_, " ",
      "mark", " e2 as ", "spam", [], by decide +kernel, by decide +kernel, by decide +kernel,
      ?_, ?_⟩, ?_, ?_⟩
    · exact ⟨by decide +kernel, by decide +kernel⟩
    · exact ⟨by decide +kernel, by decide +kernel⟩
    · exact ⟨by decide +kernel, by decide +kernel⟩
    · rw [← search_phrase]
      decide +kernel
    · rw [hunwanted]
      exact not_plainCommand (by decide +kernel) (by decide +kernel)
        ⟨by decide +kernel, by decide +kernel⟩
  · refine ⟨⟨[], "do not", " mark e2 as junk, it is not spam", by decide +kernel,
      by decide +kernel, ?_, " ", "mark", " e2 as ", "junk", ", it is not spam", by decide +kernel,
      by decide +kernel, by decide +kernel, ?_, ?_⟩, ?_, ?_⟩
    · exact ⟨by decide +kernel, by decide +kernel⟩
    · exact ⟨by decide +kernel, by decide +kernel⟩
    · exact ⟨by decide +kernel, by decide +kernel⟩
    · rw [← search_phrase]
      decide +kernel
    · rw [hdenied]
      exact not_plainCommand (by decide +kernel) (by decide +kernel)
        ⟨by decide +kernel, by decide +kernel⟩

theorem unwanted_request_accepted :
    @NegatedOnly asciiWords (asciiText.casefold (strip unwantedRequest)) ∧
      @isExplicitPositiveSpamRequest asciiText asciiWords (strip unwantedRequest) = true ∧
      ∀ (σ : Type) (proceed : Transaction σ MarkSpamReply) (s : σ),
        @markSpam asciiText asciiWords σ proceed unwantedRequest s = proceed s := by
  have hexplicit : @isExplicitPositiveSpamRequest asciiText asciiWords (strip unwantedRequest) =
      true := by decide +kernel
  exact ⟨requests_negated.1, hexplicit, fun σ proceed s =>
    @markSpam_of_explicit asciiText asciiWords unwantedRequest hexplicit σ proceed s⟩

theorem negated_only_refused_denied :
    (@isExplicitPositiveSpamRequest asciiText asciiWords (strip deniedRequest) = false ∧
        ∀ (σ : Type) (proceed : Transaction σ MarkSpamReply) (s : σ),
          @markSpam asciiText asciiWords σ proceed deniedRequest s = .ok (wordingNeeded, s)) ↔
      @Phrase asciiWords denialWords (asciiText.casefold (strip deniedRequest)) ∨
        ¬@Commands asciiWords OneLine (asciiText.casefold (strip deniedRequest)) :=
  @negated_only_refused asciiText asciiWords deniedRequest requests_negated.2

end Samples

end HardyAI.Email
