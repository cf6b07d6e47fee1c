import HardyAI.Foundation.Trace
import HardyAI.PrivateNotes.Preparation

/-! Runs of the private notes: where no note is too long for the compiler, no digest is cut and no
local day ends before its digest, every note is pending, on its way or delivered. -/

open Foundation

namespace HardyAI.PrivateNotes

section Events

inductive Call
  | capture (channel freshId externalMessageId author content : Str) (capturedAt : Instant)
  | prepare (channel : Str) (answer : Except PyError (Option Str))
  | recordPart (digestId messageId : Str)
  | markDelivered (digestId : Str)
  | markFailed (digestId : Str)
  | enforceRetention (channel : Str)
  /-- What the service keeps in memory is lost. -/
  | restart

/-- A call at the time it is made. -/
structure Event where
  now : Instant
  call : Call

structure State where
  service : Service
  records : Records
  clock : Instant

def Records.capture (r : Records) (freshId content : Str) : Captured → Records
  | .stored _ true => { r with captured := (freshId, strip content) :: r.captured }
  | .stored _ false | .ignored _ => r

def Records.deliver (r : Records) (digestId : Str) (d : Option Digest) : Records :=
  { r with delivered := (digestId, d.elim [] summaryOf) :: r.delivered }

variable [LocalClock] (channels : Channels)

def step (s : State) (e : Event) : State :=
  match e.call with
  | .capture channel freshId externalMessageId author content capturedAt =>
    let stored := s.service.captureNote (channels.config channel) freshId externalMessageId author
      content capturedAt
    ⟨stored.2, s.records.capture freshId content stored.1, e.now⟩
  | .prepare channel answer =>
    let prepared := s.service.prepareDueDigest (channels.config channel) e.now answer
    ⟨prepared.2, s.records.hand prepared.1, e.now⟩
  | .recordPart digestId messageId =>
    ⟨{ s.service with db := recordDeliveryPart digestId messageId s.service.db }, s.records, e.now⟩
  | .markDelivered digestId =>
    ⟨{ s.service with db := markDelivered digestId s.service.db },
      s.records.deliver digestId (s.service.db.digests.find? digestId), e.now⟩
  | .markFailed digestId =>
    ⟨{ s.service with db := markDeliveryFailed digestId maxDeliveryAttempts s.service.db }, s.records,
      e.now⟩
  | .enforceRetention channel =>
    ⟨(Service.enforceRetention (channels.config channel) e.now).commit s.service, s.records, e.now⟩
  | .restart => ⟨{ s.service with retained := fun _ => none }, s.records, e.now⟩

def start (now : Instant) : State := ⟨⟨⟨∅, ∅⟩, fun _ => none, []⟩, ⟨[], [], []⟩, now⟩

def stateAfter (now : Instant) (es : List Event) : State := Trace.run (step channels) (start now) es

/-- The delivery client reports on digests that it has been handed, and identifiers are new. -/
def Allowed (s : State) (e : Event) : Prop :=
  match e.call with
  | .capture _ freshId _ _ _ _ => ∀ p ∈ s.records.captured, p.1 ≠ freshId
  | .recordPart digestId _ | .markDelivered digestId | .markFailed digestId =>
    digestId ∈ s.records.returned
  | .prepare .. | .enforceRetention _ | .restart => True

/-- A later call of `prepare_due_digest` hands out the digest. -/
def StillReturned (s : State) (digestId : Str) : Prop :=
  ∃ channel later answer p, s.clock ≤ later ∧
    (s.service.prepareDueDigest (channels.config channel) later answer).1 = .ok (some p) ∧
    p.digestId = digestId

/-- No captured note is lost. -/
def NotesKept (s : State) : Prop :=
  ∀ p ∈ s.records.captured,
    match s.service.db.notes.find? p.1 with
    | some n =>
      match n.status with
      | .pending => True
      | .claimed => ∃ digestId, n.digestId = some digestId ∧ StillReturned channels s digestId
      | .digested => DeliveredInFull s.service.compiled s.records p.2
    | none => DeliveredInFull s.service.compiled s.records p.2

end Events

section Care

variable [LocalClock] (channels : Channels)

/-- There is still a time of the local day of the digest at which it is due. -/
def OpenOn (now : Instant) (d : Digest) : Prop :=
  ∃ later t, now ≤ later ∧ localNow (channels.config d.channelId) later = .ok t ∧
    isoDate t.day = d.localDate ∧ (channels.config d.channelId).scheduled ≤ t.time ∧
    (channels.config d.channelId).rawNoteRetentionDays * 86400000000 ≤ later.val

/-- The notes of the digest are delivered or go back to the queue. -/
def Call.finishes (d : Digest) : Call → Prop
  | .markDelivered digestId => digestId = d.digestId
  | .markFailed digestId => digestId = d.digestId ∧ maxDeliveryAttempts ≤ d.deliveryAttempts + 1
  | .capture .. | .prepare .. | .recordPart .. | .enforceRetention _ | .restart => False

/-- A new note is short enough for the compiler, a digest that is marked as delivered has not been
cut, and no local day ends while notes are claimed by its digest. -/
structure Careful (s : State) (e : Event) : Prop where
  short : ∀ channel freshId externalMessageId author content capturedAt,
    e.call = .capture channel freshId externalMessageId author content capturedAt →
      strip author ∈ (channels.config channel).allowedUserIds →
      (∀ n ∈ s.service.db.notes.rows, n.externalMessageId ≠ strip externalMessageId) →
        (strip content).length ≤ 2000
  whole : ∀ digestId d, e.call = .markDelivered digestId →
    s.service.db.digests.find? digestId = some d → shortened (summaryOf d) = false
  inTime : ∀ d ∈ s.service.db.digests.rows, ClaimedBy s.service.db d.digestId →
    ¬ e.call.finishes d → OpenOn channels e.now d

end Care

section Runs

variable [LocalClock] {channels : Channels} {s : State} {e : Event} {d : Digest}

/-- The digest can still be handed out at some later time. -/
def StillOpen (channels : Channels) (s : State) (d : Digest) : Prop :=
  ∃ later t, s.clock ≤ later ∧ localNow (channels.config d.channelId) later = .ok t ∧
    isoDate t.day = d.localDate ∧ (channels.config d.channelId).scheduled ≤ t.time ∧
    (s.service.retained ((channels.config d.channelId).guildId, d.channelId) =
        some (isoDate t.day) ∨
      (channels.config d.channelId).rawNoteRetentionDays * 86400000000 ≤ later.val)

/-- What is kept in a careful run. -/
structure InCustody (channels : Channels) (s : State) : Prop where
  sound : Sound s.service.db s.service.compiled s.records
  named : Named s.service.db.digests
  opened : ∀ d ∈ s.service.db.digests.rows, ClaimedBy s.service.db d.digestId →
    StillOpen channels s d

theorem InCustody.stillReturned (h : InCustody channels s) (hd : d ∈ s.service.db.digests.rows)
    (hclaimed : ClaimedBy s.service.db d.digestId) : StillReturned channels s d.digestId := by
  obtain ⟨later, t, hlater, ht, hdate, hdue, hretention⟩ := h.opened d hd hclaimed
  have hchannel := channels.channelId_config d.channelId
  obtain ⟨p, hp, hid⟩ := prepareDueDigest_returns h.sound h.named hd hclaimed hchannel ht hdate hdue
    (by rw [hchannel]; exact hretention)
  exact ⟨d.channelId, later, .ok none, p, hlater, hp, hid⟩

theorem InCustody.notesKept (h : InCustody channels s) : NotesKept channels s := by
  intro p hp
  rcases h.sound.captured p hp with ⟨n, hfind, htext, hdigested⟩ | ⟨hnone, hfull⟩
  · rw [hfind]
    dsimp only
    cases hstatus : n.status with
    | pending => trivial
    | claimed =>
      have hn := Table.mem_of_find? hfind
      obtain ⟨d, hd, hlink, -⟩ := h.sound.live n hn hstatus
      exact ⟨d.digestId, hlink, h.stillReturned hd ⟨n, hn, hstatus, hlink⟩⟩
    | digested => exact hdigested hstatus
  · rw [hnone]
    exact hfull

theorem stillOpen_of_openOn (hopen : OpenOn channels e.now d) {d' : Digest} {s' : State}
    (hclock : s'.clock = e.now) (hchannel : d.channelId = d'.channelId)
    (hdate : d.localDate = d'.localDate) : StillOpen channels s' d' := by
  obtain ⟨later, t, hlater, ht, hday, hdue, hretention⟩ := hopen
  rw [hchannel] at ht hdue hretention
  exact ⟨later, t, hclock ▸ hlater, ht, hday.trans hdate, hdue, .inr hretention⟩

theorem opened_of_ages (hcareful : Careful channels s e) {s' : State} (hclock : s'.clock = e.now)
    (hages : Ages s.service.db s'.service.db)
    (hcall : ∀ d ∈ s.service.db.digests.rows, ∀ d' ∈ s'.service.db.digests.rows,
      ClaimedBy s'.service.db d'.digestId → d.digestId = d'.digestId → ¬ e.call.finishes d) :
    ∀ d' ∈ s'.service.db.digests.rows, ClaimedBy s'.service.db d'.digestId →
      StillOpen channels s' d' := by
  intro d' hd' hclaimed'
  obtain ⟨d, hd, hclaimed, hid, hchannel, hdate⟩ := hages d' hd' hclaimed'
  exact stillOpen_of_openOn (hcareful.inTime d hd hclaimed (hcall d hd d' hd' hclaimed' hid)) hclock
    hchannel hdate

theorem sound_captureNote {c : PrivateNotesChannelConfig}
    {freshId externalMessageId author content : Str} {capturedAt : Instant}
    (h : InCustody channels s) (hfresh : ∀ p ∈ s.records.captured, p.1 ≠ freshId)
    (hshort : strip author ∈ c.allowedUserIds →
      (∀ n ∈ s.service.db.notes.rows, n.externalMessageId ≠ strip externalMessageId) →
        (strip content).length ≤ 2000) :
    let stored := s.service.captureNote c freshId externalMessageId author content capturedAt
    Sound stored.2.db stored.2.compiled (s.records.capture freshId content stored.1) ∧
      stored.2.db.digests = s.service.db.digests ∧ Ages s.service.db stored.2.db := by
  intro stored
  have hsame : Sound s.service.db s.service.compiled s.records ∧
      s.service.db.digests = s.service.db.digests ∧ Ages s.service.db s.service.db :=
    ⟨h.sound, rfl, Ages.refl _⟩
  simp only [stored, Service.captureNote]
  split
  · exact hsame
  next hauthor =>
  split
  · exact hsame
  split
  · exact hsame
  simp only [captureNote]
  split
  · next notes hnotes =>
    obtain ⟨hapart, hinsert⟩ := Table.insertApart?_eq_some.1 hnotes
    have hlength : (strip content).length ≤ 2000 :=
      hshort (not_not.1 hauthor) fun n hn => of_decide_eq_false (hapart n hn)
    refine ⟨h.sound.capture hinsert rfl rfl ?_ hfresh, rfl, ages_of_notes fun n' hn' hclaimed => ?_⟩
    · have hwhole : (strip content).take 8000 = strip content :=
        List.take_of_length_le (by omega)
      rw [notePayload]
      dsimp only
      rw [hwhole, strip_strip, List.take_of_length_le hlength]
    · rcases (Table.mem_insert? hinsert).1 hn' with hold | rfl
      · exact hold
      · cases hclaimed
  · exact hsame

omit [LocalClock] in
/-- The notes of a digest that is delivered or given up are claimed no more. -/
theorem ages_close {db : NotesDb} {id : Str} {f : Table.Assignment Digest.digestId}
    {fn : Table.Assignment Note.noteId} (hchannel : ∀ d, (f.apply d).channelId = d.channelId)
    (hdate : ∀ d, (f.apply d).localDate = d.localDate)
    (hunclaimed : ∀ n, (fn.apply n).status ≠ .claimed) :
    let closed : NotesDb :=
      { digests := db.digests.update (fun d => d.digestId = id) f
        notes := db.notes.update (fun n => n.digestId = some id) fn }
    Ages db closed ∧ ¬ ClaimedBy closed id := by
  have hkept : ∀ n' ∈ (db.notes.update (fun n => n.digestId = some id) fn).rows,
      n'.status = .claimed → n' ∈ db.notes.rows ∧ n'.digestId ≠ some id := by
    intro n' hn' hclaimed
    obtain ⟨n, hn, rfl⟩ := Table.mem_update.1 hn'
    simp only [decide_eq_true_eq] at hclaimed ⊢
    split at hclaimed
    · exact absurd hclaimed (hunclaimed n)
    · next hlink =>
      rw [if_neg hlink]
      exact ⟨hn, hlink⟩
  constructor
  · have hages := (ages_of_notes fun n' hn' hclaimed => (hkept n' hn' hclaimed).1).trans
      (@ages_updateDigest { db with notes := db.notes.update (fun n => n.digestId = some id) fn } f
        (fun d => d.digestId = id) hchannel hdate)
    exact hages
  · rintro ⟨n', hn', hclaimed, hlink⟩
    exact (hkept n' hn' hclaimed).2 hlink

theorem inCustody_markDelivered {digestId : Str} (h : InCustody channels s)
    (hcall : e.call = .markDelivered digestId) (hallowed : digestId ∈ s.records.returned)
    (hcareful : Careful channels s e) : InCustody channels (step channels s e) := by
  obtain ⟨d, hd, -⟩ := h.sound.returned digestId hallowed
  have hsound := h.sound.deliver hallowed hd (hcareful.whole digestId d hcall hd)
  obtain ⟨hages, hclosed⟩ := @ages_close s.service.db digestId (withStatus .delivered)
    (withNoteStatus .digested) (fun _ => rfl) (fun _ => rfl) fun _ => NoteStatus.noConfusion
  have hstep : step channels s e =
      ⟨{ s.service with db := markDelivered digestId s.service.db },
        { s.records with delivered := (digestId, summaryOf d) :: s.records.delivered }, e.now⟩ := by
    rw [step, hcall]
    dsimp only
    rw [Records.deliver, hd, Option.elim_some]
  rw [hstep]
  refine ⟨hsound, h.named.update (fun _ => rfl) fun _ => rfl,
    opened_of_ages hcareful rfl hages fun d₀ _ d' _ hclaimed' hid hfinishes => ?_⟩
  rw [hcall] at hfinishes
  have hthis : digestId = d'.digestId := hfinishes.trans hid
  rw [← hthis] at hclaimed'
  exact hclosed hclaimed'

omit [LocalClock] in
/-- The last failed attempt takes the notes from the digest. -/
theorem ages_fail (db : NotesDb) (id : Str) :
    Ages db (markDeliveryFailed id maxDeliveryAttempts db) ∧
      ∀ d ∈ db.digests.rows, d.digestId = id → maxDeliveryAttempts ≤ d.deliveryAttempts + 1 →
        ¬ ClaimedBy (markDeliveryFailed id maxDeliveryAttempts db) id := by
  by_cases hdead : max 1 maxDeliveryAttempts ≤
      (db.digests.find? id).elim 0 Digest.deliveryAttempts + 1
  · obtain ⟨hages, hclosed⟩ := @ages_close db id
      (attempted ((db.digests.find? id).elim 0 Digest.deliveryAttempts + 1) .deadLetter) released
      (fun _ => rfl) (fun _ => rfl) fun _ => NoteStatus.noConfusion
    unfold markDeliveryFailed
    simp only [if_pos hdead]
    exact ⟨hages, fun _ _ _ _ => hclosed⟩
  · unfold markDeliveryFailed
    simp only [if_neg hdead]
    refine ⟨ages_updateDigest (fun _ => rfl) fun _ => rfl, fun d hd hid hattempts => ?_⟩
    rw [← hid, Table.find?_of_mem hd] at hdead
    exact absurd hattempts hdead

theorem inCustody_markFailed {digestId : Str} (h : InCustody channels s)
    (hcall : e.call = .markFailed digestId) (hcareful : Careful channels s e) :
    InCustody channels (step channels s e) := by
  have hstep : step channels s e =
      ⟨{ s.service with db := markDeliveryFailed digestId maxDeliveryAttempts s.service.db },
        s.records, e.now⟩ := by
    rw [step, hcall]
  rw [hstep]
  refine ⟨h.sound.fail maxDeliveryAttempts rfl, h.named.update (fun _ => rfl) fun _ => rfl, ?_⟩
  obtain ⟨hages, hclosed⟩ := ages_fail s.service.db digestId
  refine opened_of_ages hcareful rfl hages fun d hd d' _ hclaimed' hid hfinishes => ?_
  rw [hcall] at hfinishes
  have hthis : digestId = d'.digestId := hfinishes.1.trans hid
  rw [← hthis] at hclaimed'
  exact hclosed d hd hfinishes.1.symm hfinishes.2 hclaimed'

theorem inCustody_enforceRetention {channel : Str} (h : InCustody channels s)
    (hcall : e.call = .enforceRetention channel) (hcareful : Careful channels s e) :
    InCustody channels (step channels s e) := by
  have hgoes : ∀ d, ¬ e.call.finishes d := by
    intro d
    rw [hcall]
    exact not_false
  have hstep : step channels s e =
      ⟨(Service.enforceRetention (channels.config channel) e.now).commit s.service, s.records,
        e.now⟩ := by
    rw [step, hcall]
  rw [hstep]
  cases hend : s.service.enforceRetention (channels.config channel) e.now with
  | error err =>
    have hsame : (Service.enforceRetention (channels.config channel) e.now).commit s.service =
        s.service := by
      rw [Transaction.commit, hend]
    rw [hsame]
    exact ⟨h.sound, h.named, opened_of_ages hcareful rfl (Ages.refl _) fun d _ _ _ _ _ => hgoes d⟩
  | ok p =>
    have hkept : (Service.enforceRetention (channels.config channel) e.now).commit s.service = p.2 := by
      rw [Transaction.commit, hend]
    rw [hkept]
    refine ⟨sound_retention h.sound hend, ?_,
      opened_of_ages hcareful rfl (ages_retention hend) fun d _ _ _ _ _ => hgoes d⟩
    dsimp only
    rw [digests_retention hend]
    exact h.named

theorem inCustody_step (h : InCustody channels s) (hallowed : Allowed s e)
    (hcareful : Careful channels s e) : InCustody channels (step channels s e) := by
  cases hcall : e.call with
  | capture channel freshId externalMessageId author content capturedAt =>
    rw [Allowed, hcall] at hallowed
    obtain ⟨hsound, hdigests, hages⟩ := @sound_captureNote _ channels s (channels.config channel)
      freshId externalMessageId author content capturedAt h hallowed
      (hcareful.short channel freshId externalMessageId author content capturedAt hcall)
    rw [step, hcall]
    refine ⟨hsound, ?_, opened_of_ages hcareful rfl hages fun d _ _ _ _ _ => ?_⟩
    · dsimp only
      rw [hdigests]
      exact h.named
    · rw [hcall]
      exact not_false
  | prepare channel answer =>
    have hgoes : ∀ d, ¬ e.call.finishes d := by
      intro d
      rw [hcall]
      exact not_false
    have hafter : AfterPrepare (channels.config channel) e.now s.records s.service
        (s.service.prepareDueDigest (channels.config channel) e.now answer).2
        (s.service.prepareDueDigest (channels.config channel) e.now answer).1 :=
      afterPrepare h.sound h.named answer
    rw [step, hcall]
    refine ⟨hafter.sound, hafter.named, ?_⟩
    rcases hafter.ages with hages | ⟨t, ht, hdue, hretained, hages⟩
    · exact opened_of_ages hcareful rfl hages fun d _ _ _ _ _ => hgoes d
    · intro d' hd' hclaimed'
      rcases hages d' hd' hclaimed' with ⟨d, hd, hclaimed, -, hchannel, hdate⟩ | ⟨hchannel, hdate⟩
      · exact stillOpen_of_openOn (hcareful.inTime d hd hclaimed (hgoes d)) rfl hchannel hdate
      · have hsame : d'.channelId = channel := hchannel.trans (channels.channelId_config channel)
        rw [channels.channelId_config] at hretained
        refine ⟨e.now, t, le_rfl, ?_, hdate.symm, ?_, .inl ?_⟩
        · rw [hsame, ht]
        · rw [hsame]
          exact hdue
        · rw [hsame]
          exact hretained
  | recordPart digestId messageId =>
    rw [step, hcall]
    refine ⟨h.sound.part messageId, h.named.update (fun _ => rfl) fun _ => rfl,
      opened_of_ages hcareful rfl (ages_updateDigest (fun _ => rfl) fun _ => rfl)
        fun d _ _ _ _ _ => ?_⟩
    rw [hcall]
    exact not_false
  | markDelivered digestId =>
    rw [Allowed, hcall] at hallowed
    exact inCustody_markDelivered h hcall hallowed hcareful
  | markFailed digestId => exact inCustody_markFailed h hcall hcareful
  | enforceRetention channel => exact inCustody_enforceRetention h hcall hcareful
  | restart =>
    rw [step, hcall]
    refine ⟨h.sound, h.named, opened_of_ages hcareful rfl (Ages.refl _) fun d _ _ _ _ _ => ?_⟩
    rw [hcall]
    exact not_false

theorem inCustody_start (now : Instant) : InCustody channels (start now) := by
  refine ⟨⟨?_, ?_, ?_, ?_, ?_⟩, ?_, ?_⟩ <;> exact fun _ h => absurd h List.not_mem_nil

/-- In a careful run no captured note is lost. -/
theorem notesKept_of_careful (now : Instant) (es : List Event)
    (hallowed : ∀ pre e post, es = pre ++ e :: post → Allowed (stateAfter channels now pre) e)
    (hcareful : ∀ pre e post, es = pre ++ e :: post →
      Careful channels (stateAfter channels now pre) e) :
    NotesKept channels (stateAfter channels now es) := by
  have hend : InCustody channels (stateAfter channels now es) := by
    refine @Trace.run_invariant_of_forall _ _ _ _ (fun s e => Allowed s e ∧ Careful channels s e)
      (fun s e hok hs => inCustody_step hs hok.1 hok.2) _ (inCustody_start now) es ?_
    intro pre e post hsplit
    exact ⟨hallowed pre e post hsplit, hcareful pre e post hsplit⟩
  exact hend.notesKept

end Runs

section Samples

def sampleName : Str := text "jarvis:private-notes:c:2026-03-02"

def sampleDigestId : Str := text "dcc88ea2-64c6-5a9c-b90a-aa8731f1c1e0"

/-- A clock of UTC, with the title of the sample day and the name of its digest. -/
local instance utcClock : LocalClock where
  localTime _ now := some
    ⟨⟨now.val / 86400000000, Nat.div_lt_of_lt_mul (now.isLt.trans_eq (Nat.mul_comm ..))⟩,
      now.val % 86400000000⟩
  dayTitle _ := text "Monday, March 2"
  uuid5 name := if name = sampleName then sampleDigestId else name

def sampleChannels : Channels where
  config channel :=
    { guildId := text "g"
      channelId := channel
      deliveryChannelId := text "d"
      allowedUserIds := [text "u"]
      ownerUserId := text "o"
      timezoneName := text "UTC"
      digestHour := 18
      digestMinute := 0
      skipIfEmpty := true
      rawNoteRetentionDays := 30 }
  channelId_config _ := rfl

def sampleDay : Fin 3652059 := 739676

/-- A number of hours after the start of the sample day. -/
def hour (hours : Nat) : Instant :=
  ⟨(sampleDay.val * 86400000000 + hours * 3600000000) % maxMicros, Nat.mod_lt _ (by decide)⟩

def captureMilk : Event :=
  ⟨hour 9, .capture (text "c") (text "n") (text "m") (text "u") (text "milk") (hour 9)⟩

def prepareAt (now : Instant) : Event := ⟨now, .prepare (text "c") (.ok none)⟩

def deliveredRun : List Event :=
  [captureMilk, prepareAt (hour 19), ⟨hour 19, .recordPart sampleDigestId (text "r")⟩,
    ⟨hour 19, .markDelivered sampleDigestId⟩]

/-- The client goes away before it sends the digest, and comes back on the next day. -/
def overnightRun : List Event :=
  [captureMilk, prepareAt (hour 19), ⟨hour 24, .restart⟩]

/-- What the two runs come to. -/
theorem sampleRuns_checked :
    (sampleDigestId ∈
        (stateAfter sampleChannels (hour 8) (deliveredRun.take 3)).records.returned ∧
      (∀ d ∈ (stateAfter sampleChannels (hour 8) (deliveredRun.take 2)).service.db.digests.rows,
        d.localDate = isoDate sampleDay) ∧
      (∀ d ∈ (stateAfter sampleChannels (hour 8)
        (deliveredRun.take 3)).service.db.digests.find? sampleDigestId,
          shortened (summaryOf d) = false) ∧
      ∀ d ∈ (stateAfter sampleChannels (hour 8) (deliveredRun.take 3)).service.db.digests.rows,
        d.digestId = sampleDigestId) ∧
    ((stateAfter sampleChannels (hour 8) overnightRun).service.db.notes.find?
      (text "n")).map (fun n => (n.status, n.digestId)) = some (.claimed, some sampleDigestId) ∧
    (text "n", text "milk") ∈
      (stateAfter sampleChannels (hour 8) overnightRun).records.captured := by
  decide +kernel

/-- The sample's calendar. -/
theorem sampleDay_checked :
    (hour 19 ≤ hour 20 ∧ (hour 20).val / 86400000000 = sampleDay.val) ∧
      (sampleChannels.config (text "c")).scheduled ≤ (hour 20).val % 86400000000 ∧
      30 * 86400000000 ≤ (hour 20).val ∧
      sampleName = text "jarvis:private-notes:c:" ++ isoDate sampleDay := by
  decide +kernel

theorem allowed_deliveredRun :
    Trace.Along (step sampleChannels) Allowed (start (hour 8)) deliveredRun := by
  obtain ⟨⟨hreturned, -⟩, -⟩ := sampleRuns_checked
  exact ⟨fun _ h => absurd h List.not_mem_nil, trivial, hreturned, hreturned, trivial⟩

theorem openOn_sample {d : Digest} (hdate : d.localDate = isoDate sampleDay) :
    OpenOn sampleChannels (hour 19) d := by
  obtain ⟨⟨hlater, hday⟩, hscheduled, hretention, -⟩ := sampleDay_checked
  refine ⟨hour 20, _, hlater, rfl, ?_, hscheduled, hretention⟩
  rw [hdate]
  exact congrArg isoDate hday

theorem careful_deliveredRun :
    Trace.Along (step sampleChannels) (Careful sampleChannels) (start (hour 8)) deliveredRun := by
  obtain ⟨⟨-, hdigest, hwhole, hclaimed⟩, -⟩ := sampleRuns_checked
  refine ⟨⟨?_, nofun, fun d hd => absurd hd List.not_mem_nil⟩,
    ⟨nofun, nofun, fun d hd => absurd hd List.not_mem_nil⟩, ⟨nofun, nofun, ?_⟩,
    ⟨nofun, ?_, fun d hd _ hlater => absurd (hclaimed d hd).symm hlater⟩, trivial⟩
  · intro channel freshId externalMessageId author content capturedAt hcall _ _
    cases hcall
    decide
  · intro d hd _ _
    exact openOn_sample (hdigest d hd)
  · intro digestId d hcall hfind
    cases hcall
    exact hwhole d hfind

/-- A note is captured, compiled and delivered on one day. -/
theorem notesKept_of_careful_delivered :
    NotesKept sampleChannels (stateAfter sampleChannels (hour 8) deliveredRun) :=
  notesKept_of_careful (hour 8) deliveredRun allowed_deliveredRun.split careful_deliveredRun.split

/-- The digest of a past day is not handed out again, and keeps its notes. -/
theorem overnight_note_lost :
    Trace.Along (step sampleChannels) Allowed (start (hour 8)) overnightRun ∧
      ¬ NotesKept sampleChannels (stateAfter sampleChannels (hour 8) overnightRun) := by
  refine ⟨⟨fun _ h => absurd h List.not_mem_nil, trivial, trivial, trivial⟩, fun hkept => ?_⟩
  obtain ⟨-, hnote, hcaptured⟩ := sampleRuns_checked
  obtain ⟨n, hfind, hrow⟩ := Option.map_eq_some_iff.1 hnote
  obtain ⟨hclaimed, hlink⟩ := Prod.mk.inj hrow
  have hreturned := hkept (text "n", text "milk") hcaptured
  simp only [hfind, hclaimed] at hreturned
  obtain ⟨digestId, hdigest, channel, later, answer, p, hlater, hp, hid⟩ := hreturned
  rw [hlink] at hdigest
  obtain rfl := Option.some.inj hdigest
  obtain ⟨t, ht, hname⟩ := prepareDueDigest_digestId hp
  have hday : isoDate t.day = isoDate sampleDay := by
    rw [hid] at hname
    have hnamed : digestName (sampleChannels.config channel).channelId (isoDate t.day) =
        if text "jarvis:private-notes:" ++ channel ++ text ":" ++ isoDate t.day = sampleName then
          sampleDigestId
        else text "jarvis:private-notes:" ++ channel ++ text ":" ++ isoDate t.day := rfl
    rw [hnamed] at hname
    split at hname
    · next hthis =>
      rw [sampleDay_checked.2.2.2] at hthis
      exact (List.append_inj' hthis (by rw [length_isoDate, length_isoDate])).2
    · cases congrArg List.head? hname
  have hsample : t.day = sampleDay := by
    have hread := readIsoDate_isoDate t.day
    rw [hday] at hread
    exact Option.some.inj (hread.symm.trans (readIsoDate_isoDate sampleDay))
  have hlate : 739677 * 86400000000 ≤ later.val := hlater
  obtain rfl := Except.ok.inj ht
  have hvalue : later.val / 86400000000 = 739676 := congrArg Fin.val hsample
  omega

end Samples

end HardyAI.PrivateNotes
