import HardyAI.Email.Sync

/-! What the sync of a mailbox processes: the messages up to the committed cursor, under
any interleaving of its runs. -/

open Foundation Foundation.Machine Foundation.Trace Foundation.Program

namespace HardyAI.Email.Sync

section Records

/-- The request has processed the message: it was accepted, ignored or dead-lettered. -/
def Handles (m : Str) : (op : Op) → op.Reply → Prop
  | .processMessage messageId _ _ _, .ok outcome => messageId = m ∧ outcome.retryRequired = false
  | _, _ => False

def Handled (h : History Op.Reply) (m : Str) : Prop := ∃ e ∈ h, Handles m e.1 e.2

def Processed (log : List SyncEntry) (m : Str) : Prop :=
  ∃ worker op reply, Entry.ran worker op reply ∈ log ∧ Handles m op reply

/-- The history id of the mailbox at its activation. -/
def firstActivation (log : List SyncEntry) : Option Nat :=
  log.findSome? fun e => match e with
    | .ran _ (.activate _ historyId) _ => some historyId
    | _ => none

/-- Pages that were listed in turn from `start` on, up to the token of the last one, with
the messages that they hold. -/
inductive Reaches (start : Nat) : List SyncEntry → Option PageToken → List Str → Prop
  | first (log : List SyncEntry) : Reaches start log none []
  | page {log later : List SyncEntry} {token : Option PageToken} {messages : List Str}
      {worker limit : Nat} {page : HistoryPage} {next : PageToken}
      (h : Reaches start log token messages) (hnext : page.nextPageToken = some next) :
      Reaches start (log ++ .ran worker (.listHistory start token limit) (.ok page) :: later)
        (some next) (messages ++ page.messages)

variable {log log' : List SyncEntry} {m : Str}

theorem Processed.append (h : Processed log m) : Processed (log ++ log') m := by
  obtain ⟨worker, op, reply, hmem, hhandles⟩ := h
  exact ⟨worker, op, reply, List.mem_append_left _ hmem, hhandles⟩

theorem Reaches.append {start : Nat} {token : Option PageToken} {messages : List Str}
    (h : Reaches start log token messages) : Reaches start (log ++ log') token messages := by
  cases h with
  | first => exact .first _
  | page h hnext =>
    rw [List.append_assoc, List.cons_append]
    exact .page h hnext

theorem firstActivation_append {n : Nat} (h : firstActivation log = some n) :
    firstActivation (log ++ log') = some n := by
  rw [firstActivation, List.findSome?_append]
  rw [firstActivation] at h
  rw [h]
  rfl

theorem Handled.mono {h h' : History Op.Reply} (hhandled : Handled h m) (hpre : h <+: h') :
    Handled h' m := by
  obtain ⟨e, he, hhandles⟩ := hhandled
  exact ⟨e, hpre.subset he, hhandles⟩

theorem Handled.processed {h : History Op.Reply} {worker : Nat} (hhandled : Handled h m)
    (hlogged : List.Sublist (h.map fun e => Entry.ran worker e.1 e.2) log) : Processed log m := by
  obtain ⟨e, he, hhandles⟩ := hhandled
  exact ⟨worker, e.1, e.2, hlogged.subset (List.mem_map_of_mem he), hhandles⟩

end Records

section Discipline

/-- A run has read the cursor and listed its pages in turn, and now stands at `token`: the
messages are those of the pages within the limits that were asked for. -/
inductive Walk (start : Nat) : History Op.Reply → Option PageToken → List Str → Prop
  | read (h : History Op.Reply) {state : SyncState} (hstart : state.historyId = start) :
      Walk start (h ++ [⟨.getSyncState, some state⟩]) (readToken state) []
  | page {h : History Op.Reply} {token : Option PageToken} {refs : List Str}
      (hwalk : Walk start h token refs) (limit : Nat) (page : HistoryPage) :
      Walk start (h ++ [⟨.listHistory start token limit, .ok page⟩]) page.nextPageToken
        (refs ++ page.messages.take limit)
  | other {h : History Op.Reply} {token : Option PageToken} {refs : List Str}
      (hwalk : Walk start h token refs) (e : Sigma Op.Reply) : Walk start (h ++ [e]) token refs

/-- Why a run may commit a cursor. -/
inductive Justified (h : History Op.Reply) : Nat → Option PageToken → Prop
  | continued {start : Nat} {token : PageToken} {refs : List Str}
      (hwalk : Walk start h (some token) refs) (hhandled : ∀ m ∈ refs, Handled h m) :
      Justified h start (some token)
  | finished {start limit : Nat} {token : Option PageToken} {refs : List Str}
      {page : HistoryPage} {before after : History Op.Reply}
      (hsplit : h = before ++ ⟨.listHistory start token limit, .ok page⟩ :: after)
      (hwalk : Walk start before token refs) (hlast : page.nextPageToken = none)
      (hhandled : ∀ m ∈ refs ++ page.messages.take limit, Handled h m) :
      Justified h page.historyId none
  | recovered {historyId : Nat} (hread : ⟨.currentHistoryId, .ok historyId⟩ ∈ h) :
      Justified h historyId none

/-- The messages that a recovery was given, within the limits that it asked for. -/
def searched (h : History Op.Reply) : List Str :=
  h.flatMap fun e => match e with
    | ⟨.searchMessages _ _ limit, .ok page⟩ => page.messages.take limit
    | _ => []

/-- What a run has seen before it moves the cursor. -/
def Disciplined (h : History Op.Reply) : Op → Prop
  | .activate _ historyId => ⟨.profile, .ok historyId⟩ ∈ h
  | .currentHistoryId => (∃ state : SyncState, ⟨.getSyncState, some state⟩ ∈ h) ∧
      ∀ m ∈ searched h, Handled h m
  | .completeSyncRun c => ∃ token : Option PageToken,
      c.continuationToken = token.map PageToken.text ∧ Justified h c.historyId token
  | _ => True

variable {h h' : History Op.Reply} {a : RunArgs} {state : SyncState} {runId : Str}

theorem Walk.mono {start : Nat} {token : Option PageToken} {refs : List Str}
    (hwalk : Walk start h token refs) (hpre : h <+: h') : Walk start h' token refs := by
  obtain ⟨rest, rfl⟩ := hpre
  induction rest using List.reverseRecOn with
  | nil => rwa [List.append_nil]
  | append_singleton rest e ih =>
    rw [← List.append_assoc]
    exact .other ih e

@[simp] theorem searched_concat (e : Sigma Op.Reply) :
    searched (h ++ [e]) = searched h ++ searched [e] := by
  simp [searched]

/-- The loop over a page's messages handles them all, unless it ends with an exception or a
message has to be tried again. -/
theorem processRefs_conforms (activationAt : Instant) (refs : List Str) (l : Progress) :
    Conforms Disciplined (fun h' x => searched h' = searched h ∧ h <+: h' ∧
      ∀ l' failure, x = .ok (l', failure) → l'.pageToken = l.pageToken ∧
        l'.latestHistoryId = l.latestHistoryId ∧
        (failure = none → l'.blocking = false → l.blocking = false ∧ ∀ m ∈ refs, Handled h' m))
      h (processRefs a activationAt refs l) := by
  induction refs generalizing h l with
  | nil =>
    refine ⟨rfl, List.prefix_refl h, ?_⟩
    intro l' failure heq
    obtain ⟨rfl, rfl⟩ := Prod.mk.inj (Except.ok.inj heq)
    exact ⟨rfl, rfl, fun _ hblocking => ⟨hblocking, by simp⟩⟩
  | cons ref refs ih =>
    refine ⟨trivial, fun reply => ?_⟩
    cases reply with
    | error e =>
      refine ⟨by simp [searched], List.prefix_append h _, ?_⟩
      intro l' failure heq
      obtain ⟨rfl, rfl⟩ := Prod.mk.inj (Except.ok.inj heq)
      exact ⟨rfl, rfl, nofun⟩
    | ok outcome =>
      refine (ih (l.observe outcome)).mono ?_
      rintro h' x - ⟨hsearched, hpre, hend⟩
      refine ⟨by rw [hsearched]; simp [searched], (List.prefix_append h _).trans hpre, ?_⟩
      intro l' failure heq
      obtain ⟨htoken, hlatest, hhandled⟩ := hend l' failure heq
      refine ⟨htoken, hlatest, fun hnone hblocking => ?_⟩
      obtain ⟨hobserved, hrest⟩ := hhandled hnone hblocking
      have hboth : l.blocking = false ∧ outcome.retryRequired = false := by
        simpa [Progress.observe] using hobserved
      refine ⟨hboth.1, ?_⟩
      intro m hm
      rcases List.mem_cons.1 hm with rfl | hm
      · refine ⟨⟨.processMessage m a.now activationAt a.config.maxProviderAttempts,
          .ok outcome⟩, hpre.subset (by simp), rfl, hboth.2⟩
      · exact hrest m hm

/-- A loop that stops before a page stands at the token of an earlier one. -/
theorem justified_of_stop {l : Progress} {refs : List Str}
    (hwalk : Walk state.historyId h l.pageToken refs) (hhandled : ∀ m ∈ refs, Handled h m)
    (hsome : l.pageToken ≠ none) :
    Justified h (if l.pageToken.isSome then state.historyId else l.latestHistoryId)
      l.pageToken := by
  obtain ⟨token, htoken⟩ := Option.ne_none_iff_exists'.1 hsome
  rw [htoken] at hwalk ⊢
  exact .continued hwalk hhandled

/-- A page takes the walk one token further; a last page justifies its history id. -/
theorem consumePage_conforms (remaining : Nat) (l : Progress) {refs : List Str}
    (hwalk : Walk state.historyId h l.pageToken refs)
    (hhandled : l.blocking = false → ∀ m ∈ refs, Handled h m) :
    Conforms Disciplined (fun h' x => searched h' = searched h ∧ h <+: h' ∧
      ∀ l', x = .ok (l', none) →
        (l'.blocking = false → l'.pageToken = none → Justified h' l'.latestHistoryId none) ∧
        ∃ refs', Walk state.historyId h' l'.pageToken refs' ∧
          (l'.blocking = false → ∀ m ∈ refs', Handled h' m))
      h (consumePage a state runId remaining l) := by
  refine ⟨trivial, fun reply => ?_⟩
  cases reply with
  | error e => exact ⟨by simp [searched], List.prefix_append h _, nofun⟩
  | ok page =>
    have hlisted := hwalk.page remaining page
    refine (processRefs_conforms (a := a) _ _ _).bind ?_ ?_
    · rintro h' ⟨l₁, failure⟩ hpre ⟨hsearched, -, hend⟩
      obtain ⟨-, hlatest, hdone⟩ := hend l₁ failure rfl
      have hsame : searched h' = searched h := by rw [hsearched]; simp [searched]
      cases failure with
      | some e => exact ⟨hsame, (List.prefix_append h _).trans hpre, nofun⟩
      | none =>
        refine ⟨trivial, fun counted => ?_⟩
        have hlater := List.prefix_append h'
          [(⟨.updateRunCounts runId l₁.counts a.now, counted⟩ : Sigma Op.Reply)]
        have hall (hblocking : l₁.blocking = false) : ∀ m ∈ refs ++ page.messages.take remaining,
            Handled (h' ++ [⟨.updateRunCounts runId l₁.counts a.now, counted⟩]) m := by
          obtain ⟨hbefore, hrefs⟩ := hdone rfl hblocking
          intro m hm
          rcases List.mem_append.1 hm with hm | hm
          · exact (hhandled hbefore m hm).mono
              (((List.prefix_append h _).trans hpre).trans hlater)
          · exact (hrefs m hm).mono hlater
        refine ⟨by rw [searched_concat, hsame]; simp [searched],
          ((List.prefix_append h _).trans hpre).trans hlater, fun l' heq => ?_⟩
        obtain ⟨rfl, -⟩ := Prod.mk.inj (Except.ok.inj heq)
        refine ⟨fun hblocking hlast => ?_, _, hlisted.mono (hpre.trans hlater), hall⟩
        obtain ⟨after, hafter⟩ := hpre.trans hlater
        rw [show l₁.latestHistoryId = page.historyId from hlatest]
        exact .finished (by rw [← hafter, List.append_assoc]; rfl) hwalk hlast (hall hblocking)
    · rintro h' e hpre ⟨hsearched, -, -⟩
      exact ⟨by rw [hsearched]; simp [searched], (List.prefix_append h _).trans hpre, nofun⟩

/-- Where the loop over the history pages ends without an exception and without a message to
try again, the cursor it would commit is justified. -/
theorem consumePages_conforms (pages : Nat) (l : Progress) {refs : List Str}
    (hwalk : Walk state.historyId h l.pageToken refs)
    (hhandled : l.blocking = false → ∀ m ∈ refs, Handled h m)
    (hfirst : l.pageToken = none → 0 < pages ∧
      0 < a.config.maxMessagesPerRun - l.counts.candidateCount) :
    Conforms Disciplined (fun h' x => searched h' = searched h ∧ h <+: h' ∧
      ∀ l', x = .ok (l', none) → l'.blocking = false →
        Justified h' (if l'.pageToken.isSome then state.historyId else l'.latestHistoryId)
          l'.pageToken) h (consumePages a state runId pages l) := by
  induction pages generalizing h l refs with
  | zero =>
    refine ⟨rfl, List.prefix_refl h, fun l' heq hblocking => ?_⟩
    obtain ⟨rfl, -⟩ := Prod.mk.inj (Except.ok.inj heq)
    refine justified_of_stop hwalk (hhandled hblocking) fun hnone => ?_
    exact absurd (hfirst hnone).1 (lt_irrefl 0)
  | succ pages ih =>
    unfold consumePages
    by_cases hremaining : a.config.maxMessagesPerRun - l.counts.candidateCount = 0
    · rw [if_pos hremaining]
      refine ⟨rfl, List.prefix_refl h, fun l' heq hblocking => ?_⟩
      obtain ⟨rfl, -⟩ := Prod.mk.inj (Except.ok.inj heq)
      refine justified_of_stop hwalk (hhandled hblocking) fun hnone => ?_
      have hpos := (hfirst hnone).2
      omega
    · rw [if_neg hremaining]
      refine (consumePage_conforms _ l hwalk hhandled).bind ?_ ?_
      · rintro h' ⟨l₁, failure⟩ hpre ⟨hsame, -, hend⟩
        cases failure with
        | some e => exact ⟨hsame, hpre, nofun⟩
        | none =>
          obtain ⟨hlast, refs', hwalk', hhandled'⟩ := hend l₁ rfl
          change Conforms _ _ h' (if (l₁.blocking || l₁.pageToken.isNone) = true then
            Program.pure (l₁, none) else consumePages a state runId pages l₁)
          split
          · next hstop =>
            refine ⟨hsame, hpre, fun l' heq hblocking => ?_⟩
            obtain ⟨rfl, -⟩ := Prod.mk.inj (Except.ok.inj heq)
            have hnone : l₁.pageToken = none := by simpa [hblocking] using hstop
            rw [hnone]
            exact hlast hblocking hnone
          · next hgoing =>
            have hsome : l₁.pageToken ≠ none := by
              rintro hnone
              simp [hnone] at hgoing
            refine (ih l₁ hwalk' hhandled' fun hnone => absurd hnone hsome).mono ?_
            rintro h₂ x hpre₂ ⟨hsame₂, -, hjustified⟩
            exact ⟨hsame₂.trans hsame, hpre.trans hpre₂, hjustified⟩
      · rintro h' e hpre ⟨hsame, -, -⟩
        exact ⟨hsame, hpre, nofun⟩

/-- What a recovery has searched it has processed, unless a message has to be tried again. -/
theorem searchPage_conforms (baseline : Instant) (remaining : Nat) (l : Progress)
    (hhandled : l.blocking = false → ∀ m ∈ searched h, Handled h m) :
    Conforms Disciplined (fun h' x => h <+: h' ∧ ∀ l', x = .ok (l', none) →
      l'.blocking = false → ∀ m ∈ searched h', Handled h' m)
      h (searchPage a state runId baseline remaining l) := by
  refine ⟨trivial, fun reply => ?_⟩
  cases reply with
  | error e => exact ⟨List.prefix_append h _, nofun⟩
  | ok page =>
    refine (processRefs_conforms (a := a) _ _ _).bind ?_ ?_
    · rintro h' ⟨l₁, failure⟩ hpre ⟨hsearched, -, hend⟩
      obtain ⟨-, -, hdone⟩ := hend l₁ failure rfl
      have hfront := (List.prefix_append h _).trans hpre
      cases failure with
      | some e => exact ⟨hfront, nofun⟩
      | none =>
        refine ⟨trivial, fun counted => ?_⟩
        have hlater := List.prefix_append h'
          [(⟨.updateRunCounts runId l₁.counts a.now, counted⟩ : Sigma Op.Reply)]
        refine ⟨hfront.trans hlater, fun l' heq hblocking m hm => ?_⟩
        obtain ⟨rfl, -⟩ := Prod.mk.inj (Except.ok.inj heq)
        obtain ⟨hbefore, hrefs⟩ := hdone rfl hblocking
        have hm' : m ∈ searched h ∨ m ∈ page.messages.take remaining := by
          rw [searched_concat, hsearched] at hm
          simpa [searched] using hm
        rcases hm' with hm' | hm'
        · exact (hhandled hbefore m hm').mono (hfront.trans hlater)
        · exact (hrefs m hm').mono hlater
    · rintro h' e hpre ⟨-, -, -⟩
      exact ⟨(List.prefix_append h _).trans hpre, nofun⟩

theorem searchPages_conforms (baseline : Instant) (pages : Nat) (l : Progress)
    (hhandled : l.blocking = false → ∀ m ∈ searched h, Handled h m) :
    Conforms Disciplined (fun h' x => h <+: h' ∧ ∀ l', x = .ok (l', none) →
      l'.blocking = false → ∀ m ∈ searched h', Handled h' m)
      h (searchPages a state runId baseline pages l) := by
  induction pages generalizing h l with
  | zero =>
    refine ⟨List.prefix_refl h, fun l' heq hblocking => ?_⟩
    obtain ⟨rfl, -⟩ := Prod.mk.inj (Except.ok.inj heq)
    exact hhandled hblocking
  | succ pages ih =>
    unfold searchPages
    by_cases hremaining : a.config.maxMessagesPerRun - l.counts.candidateCount = 0
    · rw [if_pos hremaining]
      refine ⟨List.prefix_refl h, fun l' heq hblocking => ?_⟩
      obtain ⟨rfl, -⟩ := Prod.mk.inj (Except.ok.inj heq)
      exact hhandled hblocking
    · rw [if_neg hremaining]
      refine (searchPage_conforms baseline _ l hhandled).bind ?_ ?_
      · rintro h' ⟨l₁, failure⟩ hpre ⟨-, hend⟩
        cases failure with
        | some e => exact ⟨hpre, nofun⟩
        | none =>
          change Conforms _ _ h' (if (l₁.blocking || l₁.pageToken.isNone) = true then
            Program.pure (l₁, none) else searchPages a state runId baseline pages l₁)
          split
          · refine ⟨hpre, fun l' heq hblocking => ?_⟩
            obtain ⟨rfl, -⟩ := Prod.mk.inj (Except.ok.inj heq)
            exact hend l₁ rfl hblocking
          · refine (ih l₁ (hend l₁ rfl)).mono ?_
            rintro h₂ x hpre₂ ⟨-, hdone⟩
            exact ⟨hpre.trans hpre₂, hdone⟩
      · rintro h' e hpre ⟨-, -⟩
        exact ⟨hpre, nofun⟩

/-- A run commits the cursor that its pages justify. -/
theorem consumeHistory_conforms (hwalk : Walk state.historyId h (readToken state) []) :
    Conforms Disciplined (fun h' _ => searched h' = searched h ∧ h <+: h')
      h (consumeHistory a state runId) := by
  refine (consumePages_conforms (a := a) a.config.maxHistoryPages
    ⟨readToken state, state.historyId, .zero, false⟩ hwalk (by simp) fun _ => ?_).bind ?_ ?_
  · exact ⟨a.config.pages_pos, a.config.messages_pos⟩
  · rintro h' ⟨l, failure⟩ hpre ⟨hsame, -, hend⟩
    cases failure with
    | some e => exact ⟨hsame, hpre⟩
    | none =>
      by_cases hblocking : l.blocking = true
      · simp only [hblocking, if_true]
        exact ⟨hsame, hpre⟩
      · rw [Bool.not_eq_true] at hblocking
        simp only [hblocking, Bool.false_eq_true, if_false]
        refine ⟨⟨l.pageToken, rfl, hend l rfl hblocking⟩, fun reply => ?_⟩
        exact ⟨by rw [searched_concat, hsame]; simp [searched],
          hpre.trans (List.prefix_append h' _)⟩
  · rintro h' e hpre ⟨hsame, -⟩
    exact ⟨hsame, hpre⟩

/-- A recovery commits the history id that it reads once it has processed its pages. -/
theorem recoverExpiredCursor_safe {counts : SyncCounts} (hread : ⟨.getSyncState, some state⟩ ∈ h)
    (hsearched : searched h = []) :
    Safe Disciplined h (recoverExpiredCursor a state runId counts) := by
  refine (searchPages_conforms _ _ _ (by simp [hsearched])).bind ?_ fun _ _ _ _ => trivial
  rintro h' ⟨l, failure⟩ hpre ⟨-, hend⟩
  cases failure with
  | some e => exact trivial
  | none =>
    by_cases hblocking : l.blocking = true
    · simp only [hblocking, if_true]
      exact trivial
    · rw [Bool.not_eq_true] at hblocking
      simp only [hblocking, Bool.false_eq_true, if_false]
      by_cases hsome : l.pageToken.isSome = true
      · simp only [hsome, if_true]
        exact trivial
      · rw [Bool.not_eq_true] at hsome
        simp only [hsome, Bool.false_eq_true, if_false]
        refine ⟨⟨⟨state, hpre.subset hread⟩, hend l rfl hblocking⟩, fun reply => ?_⟩
        cases reply with
        | error e => exact trivial
        | ok historyId => exact ⟨⟨none, rfl, .recovered (by simp)⟩, fun _ => trivial⟩

theorem failRun_safe {counts : SyncCounts} {e : PyError} :
    Safe Disciplined h (failRun a runId counts e) := ⟨trivial, fun _ => trivial⟩

theorem getSyncState_conforms :
    Conforms Disciplined (fun h' x => ∀ reply, x = .ok reply → h' = h ++ [⟨.getSyncState, reply⟩])
      h (ask .getSyncState) := by
  refine conforms_perform.2 ⟨trivial, fun reply reply' heq => ?_⟩
  obtain rfl := Except.ok.inj heq
  rfl

theorem activateSync_safe : Safe Disciplined h (activateSync a) := by
  refine ⟨trivial, fun reply => ?_⟩
  cases reply with
  | error e => exact trivial
  | ok historyId =>
    refine ⟨?_, fun _ => trivial⟩
    change (⟨.profile, .ok historyId⟩ : Sigma Op.Reply) ∈ _
    simp

theorem claimRun_conforms : Conforms Disciplined
    (fun h' _ => searched h' = searched h ∧ h <+: h') h (claimRun a) := by
  unfold claimRun
  generalize a.now.add (minutes a.config.leaseMinutes) = leaseExpiresAt
  generalize a.now.add (minutes (-a.config.leaseMinutes)) = staleBefore
  cases leaseExpiresAt with
  | error e => exact ⟨rfl, List.prefix_refl h⟩
  | ok leaseExpiresAt =>
    cases staleBefore with
    | error e => exact ⟨rfl, List.prefix_refl h⟩
    | ok staleBefore =>
      refine ⟨trivial, fun reply => ?_⟩
      refine conforms_ofExcept.2 ⟨by simp [searched], List.prefix_append h _⟩

theorem runClaimed_safe (hread : ⟨.getSyncState, some state⟩ ∈ h)
    (hwalk : Walk state.historyId h (readToken state) []) (hsearched : searched h = []) :
    Safe Disciplined h (runClaimed a state runId) := by
  refine (consumeHistory_conforms hwalk).bind ?_ fun _ _ _ _ => trivial
  rintro h' ⟨counts, result⟩ hpre ⟨hsame, -⟩
  cases result with
  | ok result => exact trivial
  | error e =>
    cases e with
    | gmailHistoryExpired =>
      refine Safe.bind (recoverExpiredCursor_safe (hpre.subset hread) (hsame.trans hsearched)) ?_
      rintro h₂ ⟨counts, result⟩ -
      cases result with
      | ok result => exact trivial
      | error e => exact failRun_safe
    | _ => exact failRun_safe

/-- A run keeps to the discipline, however it ends. -/
theorem runSync_safe : Safe Disciplined [] (runSync a) := by
  refine getSyncState_conforms.bind (fun h₁ reply _ hsee => ?_) fun _ _ _ _ => trivial
  obtain rfl := hsee reply rfl
  cases reply with
  | none => exact activateSync_safe
  | some state =>
    refine claimRun_conforms.bind (fun h₂ claim hpre hclaim => ?_) fun _ _ _ _ => trivial
    cases claim with
    | refused reason => exact trivial
    | claimed runId attempts =>
      refine runClaimed_safe (hpre.subset (by simp)) ((Walk.read [] rfl).mono hpre) ?_
      rw [hclaim.1]
      simp [searched]

end Discipline

section Invariant

/-- Up to a cursor all messages have been processed: those up to its history id since the
activation, and those of the pages that lead to its token. -/
structure Caught (log : List SyncEntry) (m : Mailbox) (historyId : Nat)
    (token : Option PageToken) : Prop where
  activated : ∃ activation, firstActivation log = some activation ∧
    ∀ p ∈ m.added, activation < p.2 → p.2 ≤ historyId → Processed log p.1
  chain : ∃ messages, Reaches historyId log token messages ∧ ∀ x ∈ messages, Processed log x
  known : historyId ≤ m.historyId

/-- What an entry of the log says of the mailbox and of the entries before it. -/
def Recorded (m : Mailbox) (before : List SyncEntry) : (op : Op) → op.Reply → Prop
  | .getSyncState, some state => Caught before m state.historyId (readToken state)
  | .profile, .ok historyId => historyId ≤ m.historyId
  | .currentHistoryId, .ok historyId => historyId ≤ m.historyId ∧
      ∃ activation, firstActivation before = some activation ∧
        ∀ p ∈ m.added, activation < p.2 → p.2 ≤ historyId → Processed before p.1
  | .listHistory start token limit, .ok page => page.historyId ≤ m.historyId ∧
      (∀ x ∈ page.messages.drop limit, Processed before x) ∧
      (page.nextPageToken = none → ∀ messages, Reaches start before token messages →
        ∀ p ∈ m.added, start < p.2 → p.2 ≤ page.historyId → p.1 ∈ messages ++ page.messages)
  | _, _ => True

def EntryRecorded (m : Mailbox) (before : List SyncEntry) : SyncEntry → Prop
  | .ran _ op reply => Recorded m before op reply
  | .outside _ _ => True

structure Sound (s : SyncSystem) : Prop where
  recorded : ∀ a x b, s.log = a ++ x :: b → EntryRecorded s.state.mailbox a x
  cursor : ∀ state, s.state.db.state = some state →
    Caught s.log s.state.mailbox state.historyId (readToken state)
  inactive : s.state.db.state = none → firstActivation s.log = none

/-- Messages that come later get history ids that no run has read yet. -/
structure Grows (m m' : Mailbox) : Prop where
  historyId : m.historyId ≤ m'.historyId
  added : ∀ p ∈ m'.added, p ∈ m.added ∨ m.historyId < p.2

theorem Grows.refl (m : Mailbox) : Grows m m := ⟨le_rfl, fun _ hp => .inl hp⟩

theorem grows_change (m : Mailbox) (o : Arrival) : Grows m (m.change o) := by
  cases o with
  | changed gap => exact ⟨Nat.le_add_right _ _, fun _ hp => .inl hp⟩
  | added messageId gap =>
    refine ⟨by simp only [Mailbox.change]; omega, fun p hp => ?_⟩
    rcases List.mem_append.1 hp with hp | hp
    · exact .inl hp
    · rw [List.mem_singleton.1 hp]
      exact .inr (by simp only; omega)

variable {log log' : List SyncEntry} {m m' : Mailbox} {historyId : Nat}
  {token : Option PageToken}

theorem Grows.known {p : Str × Nat} (hgrows : Grows m m') (hp : p ∈ m'.added)
    (hle : p.2 ≤ historyId) (hknown : historyId ≤ m.historyId) : p ∈ m.added := by
  rcases hgrows.added p hp with hold | hnew
  · exact hold
  · omega

theorem Caught.mono (h : Caught log m historyId token) (hgrows : Grows m m') :
    Caught (log ++ log') m' historyId token where
  activated := by
    obtain ⟨activation, hfirst, hprocessed⟩ := h.activated
    refine ⟨activation, firstActivation_append hfirst, fun p hp hlt hle => ?_⟩
    exact (hprocessed p (hgrows.known hp hle h.known) hlt hle).append
  chain := by
    obtain ⟨messages, hreaches, hall⟩ := h.chain
    exact ⟨messages, hreaches.append, fun x hx => (hall x hx).append⟩
  known := h.known.trans hgrows.historyId

theorem Recorded.mono {before : List SyncEntry} {op : Op} {reply : op.Reply}
    (h : Recorded m before op reply) (hgrows : Grows m m') : Recorded m' before op reply := by
  cases op with
  | getSyncState =>
    cases reply with
    | none => trivial
    | some state =>
      have hcaught : Caught (before ++ []) m' state.historyId (readToken state) :=
        Caught.mono h hgrows
      rwa [List.append_nil] at hcaught
  | profile =>
    cases reply with
    | error e => trivial
    | ok n => exact le_trans h hgrows.historyId
  | currentHistoryId =>
    cases reply with
    | error e => trivial
    | ok n =>
      obtain ⟨hknown, activation, hfirst, hprocessed⟩ := h
      refine ⟨hknown.trans hgrows.historyId, activation, hfirst, fun p hp hlt hle => ?_⟩
      exact hprocessed p (hgrows.known hp hle hknown) hlt hle
  | listHistory start token limit =>
    cases reply with
    | error e => trivial
    | ok page =>
      obtain ⟨hknown, hdropped, hcomplete⟩ := h
      refine ⟨hknown.trans hgrows.historyId, hdropped, ?_⟩
      intro hlast messages hreaches p hp hlt hle
      exact hcomplete hlast messages hreaches p (hgrows.known hp hle hknown) hlt hle
  | _ => trivial

/-- Every entry of a log is recorded. -/
def AllRecorded (m : Mailbox) (log : List SyncEntry) : Prop :=
  ∀ a x b, log = a ++ x :: b → EntryRecorded m a x

theorem AllRecorded.front {rest : List SyncEntry} (h : AllRecorded m (log ++ rest)) :
    AllRecorded m log := by
  intro a x b hsplit
  exact h a x (b ++ rest) (by rw [hsplit, List.append_assoc, List.cons_append])

/-- What a walk has come to: only messages of its own may still be unprocessed. -/
structure Walked (log : List SyncEntry) (m : Mailbox) (start : Nat) (token : Option PageToken)
    (refs : List Str) : Prop where
  activated : ∃ activation, firstActivation log = some activation ∧
    ∀ p ∈ m.added, activation < p.2 → p.2 ≤ start → Processed log p.1
  chain : ∃ messages, Reaches start log token messages ∧
    ∀ x ∈ messages, Processed log x ∨ x ∈ refs
  known : start ≤ m.historyId

theorem Walked.append {start : Nat} {refs : List Str} (h : Walked log m start token refs) :
    Walked (log ++ log') m start token refs where
  activated := by
    obtain ⟨activation, hfirst, hprocessed⟩ := h.activated
    exact ⟨activation, firstActivation_append hfirst,
      fun p hp hlt hle => (hprocessed p hp hlt hle).append⟩
  chain := by
    obtain ⟨messages, hreaches, hall⟩ := h.chain
    exact ⟨messages, hreaches.append, fun x hx => (hall x hx).imp_left Processed.append⟩
  known := h.known

variable {worker : Nat} {h : History Op.Reply}

theorem Walk.walked {start : Nat} {refs : List Str} (hwalk : Walk start h token refs)
    (hrecorded : AllRecorded m log)
    (hlogged : List.Sublist (h.map fun e => Entry.ran worker e.1 e.2) log) :
    Walked log m start token refs := by
  induction hwalk generalizing log with
  | @read h state hstart =>
    rw [List.map_append] at hlogged
    obtain ⟨a, b, rfl, -⟩ := exists_split_of_concat_sublist hlogged
    have hcaught : Caught a m state.historyId (readToken state) := hrecorded a _ b rfl
    rw [hstart] at hcaught
    have hwalked : Walked a m start (readToken state) [] := by
      obtain ⟨messages, hreaches, hall⟩ := hcaught.chain
      exact ⟨hcaught.activated, ⟨messages, hreaches, fun x hx => .inl (hall x hx)⟩, hcaught.known⟩
    exact hwalked.append
  | @page h token refs hwalk limit page ih =>
    rw [List.map_append] at hlogged
    obtain ⟨a, b, rfl, hbefore⟩ := exists_split_of_concat_sublist hlogged
    have hwalked := ih hrecorded.front hbefore
    obtain ⟨-, hdropped, -⟩ : page.historyId ≤ m.historyId ∧
        (∀ x ∈ page.messages.drop limit, Processed a x) ∧ _ := hrecorded a _ b rfl
    refine ⟨hwalked.append.activated, ?_, hwalked.known⟩
    obtain ⟨messages, hreaches, hall⟩ := hwalked.chain
    cases hnext : page.nextPageToken with
    | none => exact ⟨[], .first _, by simp⟩
    | some next =>
      refine ⟨messages ++ page.messages, .page hreaches hnext, fun x hx => ?_⟩
      rcases List.mem_append.1 hx with hx | hx
      · rcases hall x hx with hprocessed | hown
        · exact .inl hprocessed.append
        · exact .inr (List.mem_append_left _ hown)
      · rw [← List.take_append_drop limit page.messages] at hx
        rcases List.mem_append.1 hx with hx | hx
        · exact .inr (List.mem_append_right _ hx)
        · exact .inl (hdropped x hx).append
  | @other h token refs hwalk e ih =>
    rw [List.map_append] at hlogged
    obtain ⟨a, b, rfl, hbefore⟩ := exists_split_of_concat_sublist hlogged
    exact (ih hrecorded.front hbefore).append

/-- A cursor that a run may commit has been caught up with. -/
theorem Justified.caught {n : Nat} (hjustified : Justified h n token)
    (hrecorded : AllRecorded m log)
    (hlogged : List.Sublist (h.map fun e => Entry.ran worker e.1 e.2) log) :
    Caught log m n token := by
  cases hjustified with
  | continued hwalk hhandled =>
    have hwalked := hwalk.walked hrecorded hlogged
    obtain ⟨messages, hreaches, hall⟩ := hwalked.chain
    refine ⟨hwalked.activated, ⟨messages, hreaches, fun x hx => ?_⟩, hwalked.known⟩
    rcases hall x hx with hprocessed | hown
    · exact hprocessed
    · exact (hhandled x hown).processed hlogged
  | @finished start limit token refs page before after hsplit hwalk hlast hhandled =>
    have hmine (x : Str) (hx : x ∈ refs ++ page.messages.take limit) : Processed log x :=
      (hhandled x hx).processed hlogged
    have hparts : List.Sublist ((before.map fun e => Entry.ran worker e.1 e.2) ++
        [.ran worker (.listHistory start token limit) (.ok page)]) log := by
      refine List.Sublist.trans ?_ hlogged
      rw [hsplit, List.map_append, List.map_cons]
      exact (List.Sublist.refl _).append (by simp)
    obtain ⟨a, b, rfl, hbefore⟩ := exists_split_of_concat_sublist hparts
    have hwalked := hwalk.walked hrecorded.front hbefore
    obtain ⟨hknown, hdropped, hcomplete⟩ : page.historyId ≤ m.historyId ∧
        (∀ x ∈ page.messages.drop limit, Processed a x) ∧
        (page.nextPageToken = none → ∀ messages, Reaches start a token messages →
          ∀ p ∈ m.added, start < p.2 → p.2 ≤ page.historyId →
            p.1 ∈ messages ++ page.messages) := hrecorded a _ b rfl
    obtain ⟨activation, hfirst, hupto⟩ := hwalked.activated
    obtain ⟨messages, hreaches, hall⟩ := hwalked.chain
    refine ⟨⟨activation, firstActivation_append hfirst, fun p hp hlt hle => ?_⟩,
      ⟨[], .first _, by simp⟩, hknown⟩
    by_cases hold : p.2 ≤ start
    · exact (hupto p hp hlt hold).append
    · rcases List.mem_append.1 (hcomplete hlast messages hreaches p hp (by omega) hle) with
        hearlier | hpage
      · rcases hall p.1 hearlier with hprocessed | hown
        · exact hprocessed.append
        · exact hmine p.1 (List.mem_append_left _ hown)
      · rw [← List.take_append_drop limit page.messages] at hpage
        rcases List.mem_append.1 hpage with hpage | hpage
        · exact hmine p.1 (List.mem_append_right _ hpage)
        · exact (hdropped p.1 hpage).append
  | recovered hread =>
    have hentry : Entry.ran worker Op.currentHistoryId (.ok n) ∈ log :=
      hlogged.subset (List.mem_map_of_mem (f := fun e : Sigma Op.Reply =>
        (Entry.ran worker e.1 e.2 : SyncEntry)) hread)
    obtain ⟨a, b, rfl⟩ := List.append_of_mem hentry
    obtain ⟨hknown, activation, hfirst, hprocessed⟩ : n ≤ m.historyId ∧
        ∃ activation, firstActivation a = some activation ∧
          ∀ p ∈ m.added, activation < p.2 → p.2 ≤ n → Processed a p.1 := hrecorded a _ b rfl
    exact ⟨⟨activation, firstActivation_append hfirst,
      fun p hp hlt hle => (hprocessed p hp hlt hle).append⟩, ⟨[], .first _, by simp⟩, hknown⟩

end Invariant

section Steps

variable {s : SyncSystem} {worker : Nat} {history : History Op.Reply} {log : List SyncEntry}

/-- A history page ends at an id that the mailbox has reached, and the pages that lead to the
last one hold together what was added since the id that they start from. -/
def FaithfulPage (s : SyncSystem) (start : Nat) (token : Option PageToken)
    (page : HistoryPage) : Prop :=
  page.historyId ≤ s.state.mailbox.historyId ∧
    (page.nextPageToken = none → ∀ messages, Reaches start s.log token messages →
      ∀ p ∈ s.state.mailbox.added, start < p.2 → p.2 ≤ page.historyId →
        p.1 ∈ messages ++ page.messages)

def Faithful (s : SyncSystem) : SyncEvent → Prop
  | .step i env => ∀ worker history start token limit,
      pending? s i = some (worker, history, .listHistory start token limit) → env.gmail = none →
      FaithfulPage s start token (env.history.page start)
  | .start _ | .outside _ => True

/-- A history page within the limit, but for messages that have been processed before. -/
def WithinLimit (log : List SyncEntry) (limit : Nat) (page : HistoryPage) : Prop :=
  ∀ x ∈ page.messages.drop limit, Processed log x

/-- A recovery has been given what was added since the activation, but for messages that have
been processed before. -/
def FullySearched (s : SyncSystem) (history : History Op.Reply) : Prop :=
  ∀ activation, firstActivation s.log = some activation →
    ∀ p ∈ s.state.mailbox.added, activation < p.2 →
      p.1 ∈ searched history ∨ Processed s.log p.1

/-- What a request has to meet so that the cursor does not run ahead of the messages. -/
def Keeps (s : SyncSystem) (history : History Op.Reply) (env : Env) : Op → Prop
  | .listHistory start _ limit => WithinLimit s.log limit (env.history.page start)
  | .currentHistoryId => FullySearched s history
  | _ => True

def Orderly (s : SyncSystem) : SyncEvent → Prop
  | .step i env => ∀ worker history op, pending? s i = some (worker, history, op) →
      env.gmail = none → Keeps s history env op
  | .start _ | .outside _ => True

theorem exec_mailbox (env : Env) (op : Op) (w : World) : (exec env op w).2.mailbox = w.mailbox := by
  cases op <;> rfl

theorem claimSyncRun_state {runId : Str} {r : ClaimRequest} {db : SyncDb} :
    ((claimSyncRun runId r).commit db).state = db.state := by
  refine Transaction.commit_of_forall (P := fun db' : SyncDb => db'.state = db.state) rfl ?_
  intro claim db' h
  unfold claimSyncRun at h
  dsimp only at h
  split at h
  · split at h
    · exact absurd h (by simp)
    · obtain ⟨-, rfl⟩ := Prod.mk.inj (Except.ok.inj h)
      rfl
  · split_ifs at h
    all_goals
      obtain ⟨-, rfl⟩ := Prod.mk.inj (Except.ok.inj h)
      rfl

theorem recordMessageFailure_state {messageId errorType : Str} {now : Instant} {n : Int}
    {db : SyncDb} :
    ((recordMessageFailure messageId errorType now n).commit db).state = db.state := by
  refine Transaction.commit_of_forall (P := fun db' : SyncDb => db'.state = db.state) rfl ?_
  intro status db' h
  simp only [recordMessageFailure, bind_eq_ok] at h
  obtain ⟨-, -, h⟩ := h
  split at h
  · obtain ⟨-, rfl⟩ := Prod.mk.inj (Except.ok.inj h)
    rfl
  · split at h
    · exact absurd h (by simp)
    · obtain ⟨-, rfl⟩ := Prod.mk.inj (Except.ok.inj h)
      rfl

/-- Only the activation and a completed run move the cursor. -/
theorem exec_state (env : Env) (op : Op) (w : World) :
    (exec env op w).2.db.state = w.db.state ∨
      (∃ now n, op = .activate now n ∧ w.db.state = none ∧
        (exec env op w).2.db.state = some ⟨now, n, none, none, none, now⟩) ∨
      ∃ c, op = .completeSyncRun c ∧
        (exec env op w).2.db.state = w.db.state.map (SyncState.advance c) := by
  cases op with
  | claimSyncRun r => exact .inl claimSyncRun_state
  | processMessage messageId now activationAt maxAttempts =>
    left
    obtain ⟨-, -, -, -, processing⟩ := env
    cases processing with
    | raised errorType => exact recordMessageFailure_state
    | accepted _ _ => rfl
    | ignored => rfl
  | activate now n =>
    cases hstate : w.db.state with
    | some state =>
      left
      simp only [exec, World.onDb, activate, hstate]
    | none =>
      refine .inr (.inl ⟨now, n, rfl, rfl, ?_⟩)
      simp only [exec, World.onDb, activate, hstate]
  | completeSyncRun c => exact .inr (.inr ⟨c, rfl, rfl⟩)
  | _ => exact .inl rfl

theorem Sound.allRecorded (h : Sound s) : AllRecorded s.state.mailbox s.log := h.recorded

/-- Once a run has read a cursor the sync is active. -/
theorem Sound.firstActivation_of_read (h : Sound s)
    (hlogged : List.Sublist (history.map fun e => Entry.ran worker e.1 e.2) s.log)
    {state : SyncState} (hread : ⟨.getSyncState, some state⟩ ∈ history) :
    ∃ activation, firstActivation s.log = some activation := by
  have hentry : Entry.ran worker Op.getSyncState (some state) ∈ s.log :=
    hlogged.subset (List.mem_map_of_mem (f := fun e : Sigma Op.Reply =>
      (Entry.ran worker e.1 e.2 : SyncEntry)) hread)
  obtain ⟨a, b, hsplit⟩ := List.append_of_mem hentry
  have hcaught : Caught a s.state.mailbox state.historyId (readToken state) :=
    h.recorded a _ b hsplit
  obtain ⟨activation, hfirst, -⟩ := hcaught.activated
  rw [hsplit]
  exact ⟨activation, firstActivation_append hfirst⟩

/-- What a faithful gateway serves to an orderly run is recorded. -/
theorem exec_recorded {env : Env} {op : Op} (h : Sound s) (hallowed : Disciplined history op)
    (hlogged : List.Sublist (history.map fun e => Entry.ran worker e.1 e.2) s.log)
    (hfaithful : ∀ start token limit, op = .listHistory start token limit → env.gmail = none →
      FaithfulPage s start token (env.history.page start))
    (hkeeps : env.gmail = none → Keeps s history env op) :
    Recorded s.state.mailbox s.log op (exec env op s.state).1 := by
  cases op with
  | getSyncState =>
    cases hstate : s.state.db.state with
    | none => simp only [exec, hstate, Recorded]
    | some state =>
      simp only [exec, hstate, Recorded]
      exact h.cursor state hstate
  | profile =>
    cases hgmail : env.gmail with
    | some e => simp only [exec, Env.gmailCall, hgmail, Recorded]
    | none =>
      simp only [exec, Env.gmailCall, hgmail, Recorded]
      exact le_rfl
  | currentHistoryId =>
    cases hgmail : env.gmail with
    | some e => simp only [exec, Env.gmailCall, hgmail, Recorded]
    | none =>
      simp only [exec, Env.gmailCall, hgmail, Recorded]
      obtain ⟨⟨state, hread⟩, hhandled⟩ := hallowed
      obtain ⟨activation, hfirst⟩ := h.firstActivation_of_read hlogged hread
      refine ⟨le_rfl, activation, hfirst, fun p hp hlt _ => ?_⟩
      rcases hkeeps hgmail activation hfirst p hp hlt with hsearched | hprocessed
      · exact (hhandled p.1 hsearched).processed hlogged
      · exact hprocessed
  | listHistory start token limit =>
    cases hgmail : env.gmail with
    | some e => simp only [exec, Env.gmailCall, hgmail, Recorded]
    | none =>
      simp only [exec, Env.gmailCall, hgmail, Recorded]
      obtain ⟨hknown, hcomplete⟩ := hfaithful start token limit rfl hgmail
      exact ⟨hknown, hkeeps hgmail, hcomplete⟩
  | _ => trivial

theorem readToken_of_text {state : SyncState} {token : Option PageToken}
    (h : state.continuationToken = token.map PageToken.text) : readToken state = token := by
  cases token with
  | none =>
    rw [readToken, h]
    rfl
  | some token =>
    rw [readToken, h]
    exact PageToken.ofText_text token

/-- The activation starts the cursor where the mailbox was. -/
theorem caught_of_activation {now : Instant} {n : Nat} {reply : SyncState}
    (hfirst : firstActivation s.log = none) (hknown : n ≤ s.state.mailbox.historyId) :
    Caught (s.log ++ [.ran worker (.activate now n) reply]) s.state.mailbox n none where
  activated := by
    refine ⟨n, ?_, fun p _ hlt hle => absurd hle (by omega)⟩
    rw [firstActivation, List.findSome?_append]
    rw [firstActivation] at hfirst
    rw [hfirst]
    rfl
  chain := ⟨[], .first _, by simp⟩
  known := hknown

theorem firstActivation_concat_ran {op : Op} {reply : op.Reply}
    (hop : ∀ now n, op ≠ .activate now n) (hfirst : firstActivation log = none) :
    firstActivation (log ++ [.ran worker op reply]) = none := by
  rw [firstActivation, List.findSome?_append]
  rw [firstActivation] at hfirst
  rw [hfirst]
  cases op with
  | activate now n => exact absurd rfl (hop now n)
  | _ => rfl

theorem step_sound {e : SyncEvent} (h : Sound s)
    (hfollows : ∀ t ∈ s.threads, Follows Disciplined s.log t) (hfaithful : Faithful s e)
    (horderly : Orderly s e) : Sound (syncMachine.step s e) := by
  rcases step_cases (M := syncMachine) s e with
    ⟨i, env, worker, history, op, rfl, hpending, hstate, hlog⟩ | ⟨o, -, hstate, hlog⟩ |
      ⟨-, hstate, hlog⟩
  · obtain ⟨hallowed, hlogged⟩ := Follows.allowed hfollows hpending
    have hmailbox : (syncMachine.step s (.step i env)).state.mailbox = s.state.mailbox := by
      rw [hstate]
      exact exec_mailbox env op s.state
    have hserved : Recorded s.state.mailbox s.log op (exec env op s.state).1 := by
      refine exec_recorded h hallowed hlogged ?_ (horderly worker history op hpending)
      rintro start token limit rfl hgmail
      exact hfaithful worker history start token limit hpending hgmail
    have hcases := exec_state env op s.state
    constructor
    · intro a x b hsplit
      rw [hlog] at hsplit
      rw [hmailbox]
      rcases concat_eq_append_cons hsplit with ⟨rfl, rfl, rfl⟩ | ⟨b', rfl, hold⟩
      · exact hserved
      · exact h.recorded a x b' hold
    · intro state hafter
      rw [hmailbox, hlog]
      rw [hstate] at hafter
      rcases hcases with hsame | ⟨now, n, rfl, hnone, hnew⟩ | ⟨c, rfl, hmoved⟩
      · exact (h.cursor state (hsame ▸ hafter)).mono (Grows.refl _)
      · obtain rfl := Option.some.inj (hnew.symm.trans hafter)
        have hread : Entry.ran worker Op.profile (.ok n) ∈ s.log :=
          hlogged.subset (List.mem_map_of_mem (f := fun e : Sigma Op.Reply =>
            (Entry.ran worker e.1 e.2 : SyncEntry)) hallowed)
        obtain ⟨a, b, hsplit⟩ := List.append_of_mem hread
        have hknown : n ≤ s.state.mailbox.historyId := h.recorded a _ b hsplit
        exact caught_of_activation (h.inactive hnone) hknown
      · obtain ⟨token, htoken, hjustified⟩ := hallowed
        have hcaught := hjustified.caught h.allRecorded hlogged
        obtain ⟨old, -, rfl⟩ := Option.map_eq_some_iff.1 (hmoved.symm.trans hafter)
        have hread : readToken (SyncState.advance c old) = token := readToken_of_text htoken
        rw [hread]
        exact hcaught.mono (Grows.refl _)
    · intro hafter
      rw [hlog]
      rw [hstate] at hafter
      change (exec env op s.state).2.db.state = none at hafter
      rcases hcases with hsame | ⟨now, n, rfl, hnone, hnew⟩ | ⟨c, rfl, hmoved⟩
      · have hbefore : s.state.db.state = none := hsame ▸ hafter
        refine firstActivation_concat_ran ?_ (h.inactive hbefore)
        rintro now n rfl
        simp [exec, World.onDb, activate, hbefore] at hafter
      · exact absurd (hnew.symm.trans hafter) (by simp)
      · refine firstActivation_concat_ran nofun (h.inactive ?_)
        rwa [hmoved, Option.map_eq_none_iff] at hafter
  · have hgrows : Grows s.state.mailbox (syncMachine.step s e).state.mailbox := by
      rw [hstate]
      exact grows_change s.state.mailbox o
    have hdb : (syncMachine.step s e).state.db = s.state.db := by
      rw [hstate]
      rfl
    constructor
    · intro a x b hsplit
      rw [hlog] at hsplit
      rcases concat_eq_append_cons hsplit with ⟨rfl, rfl, rfl⟩ | ⟨b', rfl, hold⟩
      · trivial
      · cases x with
        | ran worker op reply => exact Recorded.mono (h.recorded a _ b' hold) hgrows
        | outside o answer => trivial
    · intro state hafter
      rw [hlog]
      rw [hdb] at hafter
      exact (h.cursor state hafter).mono hgrows
    · intro hafter
      rw [hdb] at hafter
      rw [hlog, firstActivation, List.findSome?_append]
      have hfirst := h.inactive hafter
      rw [firstActivation] at hfirst
      rw [hfirst]
      rfl
  · constructor
    · rw [hlog, hstate]
      exact h.recorded
    · rw [hlog, hstate]
      exact h.cursor
    · rw [hlog, hstate]
      exact h.inactive

theorem syncAfter_follows (mailbox : Mailbox) (es : List SyncEvent) :
    ∀ t ∈ (syncAfter mailbox es).threads, Follows Disciplined (syncAfter mailbox es).log t := by
  have hprogram : ∀ a, Safe Disciplined [] (syncMachine.program a) := fun a =>
    Safe.bind runSync_safe fun _ _ _ => trivial
  have hchild : ∀ h op c r, Disciplined h op → syncMachine.spawns op = some c →
      Safe Disciplined (h ++ [⟨op, r⟩]) (syncMachine.child c) := fun _ _ c _ _ _ => c.elim
  exact run_follows hprogram hchild _ es

theorem sound_start (mailbox : Mailbox) : Sound (syncAfter mailbox []) := by
  constructor
  · intro a x b hsplit
    simp [syncAfter, Machine.start] at hsplit
  · intro state hstate
    simp [syncAfter, Machine.start, SyncDb.empty] at hstate
  · intro _
    rfl

theorem reachable_sound (mailbox : Mailbox) (es : List SyncEvent)
    (hok : ∀ pre e post, es = pre ++ e :: post →
      Faithful (syncAfter mailbox pre) e ∧ Orderly (syncAfter mailbox pre) e) :
    Sound (syncAfter mailbox es) := by
  induction es using List.reverseRecOn with
  | nil => exact sound_start mailbox
  | append_singleton es e ih =>
    obtain ⟨hfaithful, horderly⟩ := hok es e [] rfl
    have hbefore : Sound (syncAfter mailbox es) :=
      ih fun pre a post hsplit => hok pre a (post ++ [e]) (by rw [hsplit]; simp)
    have hlast : syncAfter mailbox (es ++ [e]) = syncMachine.step (syncAfter mailbox es) e :=
      run_concat _ es e
    rw [hlast]
    exact step_sound hbefore (syncAfter_follows mailbox es) hfaithful horderly

end Steps

section Completeness

/-- No message is skipped: where the cursor is (H, no continuation), everything added between
the activation and H has been processed. -/
def NoneSkipped (s : SyncSystem) : Prop :=
  ∀ state activation, s.state.db.state = some state → state.continuationToken = none →
    firstActivation s.log = some activation →
      ∀ p ∈ s.state.mailbox.added, activation < p.2 → p.2 ≤ state.historyId → Processed s.log p.1

/-- Whatever the runs and the arrivals do: with a gateway whose history pages are faithful, and
as long as no unprocessed message is cut off by a limit and each recovery has been given what was
added since the activation, no message is skipped in any state. -/
theorem no_message_skipped (mailbox : Mailbox) (es : List SyncEvent)
    (hfaithful : ∀ pre e post, es = pre ++ e :: post → Faithful (syncAfter mailbox pre) e)
    (horderly : ∀ pre e post, es = pre ++ e :: post → Orderly (syncAfter mailbox pre) e) :
    NoneSkipped (syncAfter mailbox es) := by
  have hsound := reachable_sound mailbox es fun pre e post hsplit =>
    ⟨hfaithful pre e post hsplit, horderly pre e post hsplit⟩
  intro state activation hstate _ hfirst p hp hlt hle
  obtain ⟨activation', hfirst', hprocessed⟩ := (hsound.cursor state hstate).activated
  obtain rfl := Option.some.inj (hfirst.symm.trans hfirst')
  exact hprocessed p hp hlt hle

end Completeness

section Samples

/-- The message that a request has processed. -/
def SyncEntry.processedId? : SyncEntry → Option Str
  | .ran _ (.processMessage messageId _ _ _) (.ok outcome) =>
    if outcome.retryRequired then none else some messageId
  | _ => none

theorem processed_iff {log : List SyncEntry} {m : Str} :
    Processed log m ↔ m ∈ log.filterMap SyncEntry.processedId? := by
  rw [List.mem_filterMap]
  constructor
  · rintro ⟨worker, op, reply, hmem, hhandles⟩
    refine ⟨_, hmem, ?_⟩
    cases op with
    | processMessage messageId now activationAt maxAttempts =>
      cases reply with
      | error e => exact hhandles.elim
      | ok outcome =>
        obtain ⟨rfl, hdone⟩ := hhandles
        simp [SyncEntry.processedId?, hdone]
    | _ => exact hhandles.elim
  · rintro ⟨e, hmem, he⟩
    unfold SyncEntry.processedId? at he
    split at he
    · next worker messageId now activationAt maxAttempts outcome =>
      split_ifs at he with hretry
      obtain rfl := Option.some.inj he
      rw [Bool.not_eq_true] at hretry
      exact ⟨worker, _, _, hmem, rfl, hretry⟩
    · exact absurd he (by simp)

/-- Every history page that is served holds all that is new since its start. -/
def servesAll (s : SyncSystem) : SyncEvent → Bool
  | .step i env => match pending? s i with
    | some (_, _, .listHistory start _ _) =>
      env.gmail.isSome || ((env.history.page start).historyId ≤ s.state.mailbox.historyId &&
        s.state.mailbox.added.all fun p =>
          p.2 ≤ start || p.1 ∈ (env.history.page start).messages)
    | _ => true
  | .start _ | .outside _ => true

theorem faithful_of_servesAll (s : SyncSystem) (e : SyncEvent) (h : servesAll s e = true) :
    Faithful s e := by
  cases e with
  | step i env =>
    intro worker history start token limit hpending hgmail
    simp only [servesAll, hpending, hgmail, Option.isSome_none, Bool.false_or, Bool.and_eq_true,
      decide_eq_true_eq, List.all_eq_true, Bool.or_eq_true] at h
    refine ⟨h.1, fun _ messages _ p hp hlt _ => List.mem_append_right _ ?_⟩
    exact (h.2 p hp).resolve_left (by omega)
  | _ => trivial

/-- No page goes beyond the limit, and a recovery is given all messages that are left. -/
def keepsAll (s : SyncSystem) : SyncEvent → Bool
  | .step i env => match pending? s i with
    | some (_, _, .listHistory start _ limit) => (env.history.page start).messages.length ≤ limit
    | some (_, history, .currentHistoryId) =>
      s.state.mailbox.added.all fun p =>
        p.1 ∈ searched history || p.1 ∈ s.log.filterMap SyncEntry.processedId?
    | _ => true
  | .start _ | .outside _ => true

theorem orderly_of_keepsAll (s : SyncSystem) (e : SyncEvent) (h : keepsAll s e = true) :
    Orderly s e := by
  cases e with
  | step i env =>
    intro worker history op hpending _
    cases op with
    | listHistory start token limit =>
      simp only [keepsAll, hpending, decide_eq_true_eq] at h
      intro x hx
      rw [List.drop_eq_nil_of_le h] at hx
      exact absurd hx List.not_mem_nil
    | currentHistoryId =>
      simp only [keepsAll, hpending, List.all_eq_true, Bool.or_eq_true, decide_eq_true_eq] at h
      intro activation _ p hp _
      exact (h p hp).imp_right processed_iff.2
    | _ => trivial
  | _ => trivial

def sampleConfig : Config where
  maxHistoryPages := 2
  maxMessagesPerRun := 1
  leaseMinutes := 10
  maxProviderAttempts := 3
  pages_pos := by decide
  messages_pos := le_rfl

def runAt (hour : Fin 24) : RunArgs where
  config := sampleConfig
  workerId := text "worker"
  now := ⟨hour.val * 3600000000 + 63871200000000000, hours_lt_maxMicros hour⟩
  runKind := .scheduled
  bucketKey := padded 2 hour.val

/-- The first run, which activates the sync. -/
def activatingRun : List SyncEvent :=
  [.start (runAt 1), .step 0 {}, .step 0 {}, .step 0 {}]

def pageOf (historyId : Nat) (messages : List String) : RawHistory :=
  ⟨messages.map fun m => [text m], some historyId, []⟩

/-- Two messages arrive, the next page holds both of them, and the run may process one. -/
def cutOffRun : List SyncEvent := activatingRun ++
  [.outside (.added (text "m1") 0), .outside (.added (text "m2") 0), .start (runAt 2),
    .step 1 {}, .step 1 { freshId := text "run-2" }, .step 1 { history := pageOf 12 ["m1", "m2"] },
    .step 1 {}, .step 1 {}, .step 1 {}]

/-- A message arrives and is processed. Then the cursor has expired, and a recovery finds the
other one. -/
def recoveredRun : List SyncEvent := activatingRun ++
  [.outside (.added (text "m1") 0), .start (runAt 2),
    .step 1 {}, .step 1 { freshId := text "run-2" }, .step 1 { history := pageOf 11 ["m1"] },
    .step 1 {}, .step 1 {}, .step 1 {},
    .outside (.added (text "m2") 0), .start (runAt 3),
    .step 2 {}, .step 2 { freshId := text "run-3" },
    .step 2 { gmail := some .gmailHistoryExpired }, .step 2 { search := ⟨[text "m2"], []⟩ },
    .step 2 {}, .step 2 {}, .step 2 {}, .step 2 {}]

theorem forall_splits {P : SyncSystem → SyncEvent → Prop} {check : SyncSystem → SyncEvent → Bool}
    (hcheck : ∀ s e, check s e = true → P s e) {mailbox : Mailbox} {es : List SyncEvent}
    (h : ∀ n < es.length, (es[n]?).all (check (syncAfter mailbox (es.take n))) = true) :
    ∀ pre e post, es = pre ++ e :: post → P (syncAfter mailbox pre) e := by
  rintro pre e post rfl
  have hthere := h pre.length (by simp)
  simp only [List.getElem?_append_right le_rfl, Nat.sub_self, List.getElem?_cons_zero,
    Option.all_some, List.take_left'] at hthere
  exact hcheck _ e hthere

/-- The gateway is faithful, and a message is skipped. -/
theorem message_skipped_cutOffRun :
    (∀ pre e post, cutOffRun = pre ++ e :: post → Faithful (syncAfter ⟨10, []⟩ pre) e) ∧
      ¬ NoneSkipped (syncAfter ⟨10, []⟩ cutOffRun) := by
  refine ⟨forall_splits faithful_of_servesAll (by decide +kernel), fun h => ?_⟩
  have hcursor : (syncAfter ⟨10, []⟩ cutOffRun).state.db.state.map
      (fun state => (state.historyId, state.continuationToken)) = some (12, none) := by
    decide +kernel
  obtain ⟨state, hstate, hvalues⟩ := Option.map_eq_some_iff.1 hcursor
  obtain ⟨hid, htoken⟩ := Prod.mk.inj hvalues
  have hprocessed := h state 10 hstate htoken (by decide +kernel) (text "m2", 12)
    (by decide +kernel) (by decide) hid.ge
  rw [processed_iff] at hprocessed
  exact absurd hprocessed (by decide +kernel)

theorem no_message_skipped_recoveredRun :
    NoneSkipped (syncAfter ⟨10, []⟩ recoveredRun) :=
  no_message_skipped ⟨10, []⟩ recoveredRun
    (forall_splits faithful_of_servesAll (by decide +kernel))
    (forall_splits orderly_of_keepsAll (by decide +kernel))

end Samples

end HardyAI.Email.Sync
