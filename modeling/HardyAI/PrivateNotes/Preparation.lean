import HardyAI.PrivateNotes.Custody

/-! What `prepare_due_digest` does to the notes: it purges, claims, compiles and hands out. -/

open Foundation

namespace HardyAI.PrivateNotes

section Names

variable [LocalClock] {db : NotesDb} {digests : DigestTable} {id : Str} {d d' : Digest}

/-- Digests are named after their channel and their local day. -/
def Named (t : DigestTable) : Prop :=
  ∀ d ∈ t.rows, d.digestId = digestName d.channelId d.localDate

theorem Named.eq (h : Named digests) (hd : d ∈ digests.rows) (hd' : d' ∈ digests.rows)
    (hchannel : d.channelId = d'.channelId) (hdate : d.localDate = d'.localDate) : d = d' :=
  digests.key_injective hd hd' (by rw [h d hd, h d' hd', hchannel, hdate])

theorem Named.update (h : Named digests) {f : Table.Assignment Digest.digestId}
    {g : Digest → Bool} (hchannel : ∀ d, (f.apply d).channelId = d.channelId)
    (hdate : ∀ d, (f.apply d).localDate = d.localDate) : Named (digests.update g f) := by
  intro d' hd'
  obtain ⟨d, hd, rfl⟩ := Table.mem_update.1 hd'
  split
  · rw [f.keeps, hchannel, hdate]
    exact h d hd
  · exact h d hd

theorem Named.digestOn (h : Named digests) (hd : d ∈ digests.rows) :
    digestOn digests d.channelId d.localDate = some d := by
  cases hfound : PrivateNotes.digestOn digests d.channelId d.localDate with
  | none =>
    have hnot := List.find?_eq_none.1 hfound d hd
    simp at hnot
  | some d' =>
    have hmem := List.mem_of_find?_eq_some hfound
    have hsame := List.find?_some hfound
    simp only [Bool.and_eq_true, decide_eq_true_eq] at hsame
    rw [h.eq hmem hd hsame.1 hsame.2]

end Names

section Claimed

def ClaimedBy (db : NotesDb) (digestId : Str) : Prop :=
  ∃ n ∈ db.notes.rows, n.status = .claimed ∧ n.digestId = some digestId

/-- The claimed notes have been claimed before, by the digest of the same channel and day. -/
def Ages (db db' : NotesDb) : Prop :=
  ∀ d' ∈ db'.digests.rows, ClaimedBy db' d'.digestId → ∃ d ∈ db.digests.rows,
    ClaimedBy db d.digestId ∧ d.digestId = d'.digestId ∧ d.channelId = d'.channelId ∧
      d.localDate = d'.localDate

variable {db db' db'' : NotesDb} {id : Str}

theorem Ages.refl (db : NotesDb) : Ages db db := fun d hd hclaimed => ⟨d, hd, hclaimed, rfl, rfl, rfl⟩

theorem Ages.trans (h : Ages db db') (h' : Ages db' db'') : Ages db db'' := by
  intro d'' hd'' hclaimed''
  obtain ⟨d', hd', hclaimed', hid', hchannel', hdate'⟩ := h' d'' hd'' hclaimed''
  obtain ⟨d, hd, hclaimed, hid, hchannel, hdate⟩ := h d' hd' hclaimed'
  exact ⟨d, hd, hclaimed, hid.trans hid', hchannel.trans hchannel', hdate.trans hdate'⟩

/-- Notes that are claimed after a change have been so before it. -/
theorem ages_of_notes {notes : NoteTable}
    (h : ∀ n' ∈ notes.rows, n'.status = .claimed → n' ∈ db.notes.rows) :
    Ages db { db with notes } := by
  rintro d hd ⟨n, hn, hclaimed, hlink⟩
  exact ⟨d, hd, ⟨n, h n hn hclaimed, hclaimed, hlink⟩, rfl, rfl, rfl⟩

theorem ages_updateDigest {f : Table.Assignment Digest.digestId} {g : Digest → Bool}
    (hchannel : ∀ d, (f.apply d).channelId = d.channelId)
    (hdate : ∀ d, (f.apply d).localDate = d.localDate) :
    Ages db { db with digests := db.digests.update g f } := by
  intro d' hd' hclaimed
  obtain ⟨d, hd, rfl⟩ := Table.mem_update.1 hd'
  split at hclaimed
  · next hg =>
    rw [if_pos hg, f.keeps, hchannel, hdate]
    rw [f.keeps] at hclaimed
    exact ⟨d, hd, hclaimed, rfl, rfl, rfl⟩
  · next hg =>
    rw [if_neg hg]
    exact ⟨d, hd, hclaimed, rfl, rfl, rfl⟩

end Claimed

section Steps

variable [LocalClock] {s kept : Service} {c : PrivateNotesChannelConfig} {now : Instant}
  {r : Records} {t : LocalTime} {day : Fin 3652059} {k : Nat}

omit [LocalClock] in
theorem add_of_le {m : Int} (hpos : 0 ≤ m) (h : m ≤ now.val) :
    ∃ cutoff, now.add (.micros (-m)) = .ok cutoff := by
  have hlt := now.isLt
  exact ⟨_, dif_pos ⟨by omega, by omega⟩⟩

theorem enforceRetention_ok (ht : localNow c now = .ok t)
    (h : s.retained (c.guildId, c.channelId) = some (isoDate t.day) ∨
      c.rawNoteRetentionDays * 86400000000 ≤ now.val) :
    ∃ k kept, s.enforceRetention c now = .ok (k, kept) := by
  by_cases hretained : s.retained (c.guildId, c.channelId) = some (isoDate t.day)
  · have hend : s.enforceRetention c now = .ok (0, s) :=
      bind_eq_ok.2 ⟨t, ht, if_pos hretained⟩
    exact ⟨0, s, hend⟩
  · have hcut := h.resolve_left hretained
    obtain ⟨cutoff, hcutoff⟩ := @add_of_le now (c.rawNoteRetentionDays * 86400000000) (by omega)
      (by omega)
    let purged := purgeDigestedNotes c.ownerUserId c.channelId (isoUtc cutoff) s.db
    let kept : Service := { s with
      db := purged.2
      retained := Function.update s.retained (c.guildId, c.channelId) (some (isoDate t.day)) }
    have hend : s.enforceRetention c now = .ok (purged.1, kept) :=
      bind_eq_ok.2 ⟨t, ht, (if_neg hretained).trans (bind_eq_ok.2 ⟨cutoff, hcutoff, rfl⟩)⟩
    exact ⟨_, _, hend⟩

theorem enforceRetention_cases (h : s.enforceRetention c now = .ok (k, kept)) :
    kept.compiled = s.compiled ∧
    (∃ t, localNow c now = .ok t ∧ kept.retained (c.guildId, c.channelId) = some (isoDate t.day)) ∧
    (kept.db = s.db ∨ ∃ before, kept.db =
      { s.db with notes := s.db.notes.delete (purgeable c.ownerUserId c.channelId before) }) := by
  obtain ⟨t, ht, hrest⟩ := bind_eq_ok.1 h
  split at hrest
  · next hretained =>
    cases hrest
    exact ⟨rfl, ⟨t, ht, hretained⟩, .inl rfl⟩
  · obtain ⟨cutoff, hcutoff, hend⟩ := bind_eq_ok.1 hrest
    cases hend
    exact ⟨rfl, ⟨t, ht, Function.update_self ..⟩, .inr ⟨_, rfl⟩⟩

theorem sound_retention (h : Sound s.db s.compiled r) (hend : s.enforceRetention c now = .ok (k, kept)) :
    Sound kept.db kept.compiled r := by
  obtain ⟨hcompiled, -, hdb⟩ := enforceRetention_cases hend
  rw [hcompiled]
  rcases hdb with hsame | ⟨before, hpurged⟩
  · rw [hsame]
    exact h
  · rw [hpurged]
    refine h.purge fun n hn => ?_
    simp only [purgeable, Bool.and_eq_true, decide_eq_true_eq] at hn
    exact hn.1.2

theorem digests_retention (hend : s.enforceRetention c now = .ok (k, kept)) :
    kept.db.digests = s.db.digests := by
  obtain ⟨-, -, hsame | ⟨before, hpurged⟩⟩ := enforceRetention_cases hend
  · rw [hsame]
  · rw [hpurged]

theorem ages_retention (hend : s.enforceRetention c now = .ok (k, kept)) : Ages s.db kept.db := by
  obtain ⟨-, -, hsame | ⟨before, hpurged⟩⟩ := enforceRetention_cases hend
  · rw [hsame]
    exact Ages.refl s.db
  · rw [hpurged]
    exact ages_of_notes fun n hn _ => (List.mem_filter.1 hn).1

variable {req : ClaimRequest} {db db' : NotesDb} {d : Digest} {notes : List Note}
  {given : List (Str × List NotePayload)}

omit [LocalClock] in
/-- A claim finds the digest of the channel and the day, or makes one of the pending notes. -/
theorem claimDigest_cases (h : claimDigest req db = .ok ((d, notes), db')) :
    (digestOn db.digests req.channelId req.localDate = some d ∧ db' = db ∧
      notes = selectNotes db.notes fun n => n.digestId = some d.digestId) ∨
    (d = newDigest req (claimable req db.notes) ∧ notes = claimable req db.notes ∧
      ∃ digests, db.digests.insert? (newDigest req (claimable req db.notes)) = some digests ∧
        db' = ⟨db.notes.update (fun n => n.noteId ∈ (claimable req db.notes).map Note.noteId)
          (claimFor req.digestId), digests⟩) := by
  unfold claimDigest at h
  cases hfound : digestOn db.digests req.channelId req.localDate with
  | some d' =>
    simp only [hfound] at h
    cases h
    exact .inl ⟨rfl, rfl, rfl⟩
  | none =>
    simp only [hfound] at h
    split at h
    · cases h
    · next digests hinsert =>
      cases h
      exact .inr ⟨rfl, rfl, digests, hinsert, rfl⟩

/-- What is known after a claim: the digest carries the name of its day, and the notes that are
handed on are those that are linked to it. -/
structure ClaimedFor (req : ClaimRequest) (db : NotesDb) (d : Digest) (notes : List Note) : Prop where
  mem : d ∈ db.digests.rows
  channelId : d.channelId = req.channelId
  localDate : d.localDate = req.localDate
  covered : ∀ n ∈ db.notes.rows, n.digestId = some d.digestId →
    ∃ m ∈ notes, notePayload m = notePayload n

omit [LocalClock] in
theorem mem_selectNotes {t : NoteTable} {g : Note → Bool} {n : Note} :
    n ∈ selectNotes t g ↔ n ∈ t.rows ∧ g n = true := by
  rw [selectNotes, List.mem_mergeSort, List.mem_filter]

/-- The state after a claim. -/
structure AfterClaim (req : ClaimRequest) (r : Records) (given : List (Str × List NotePayload))
    (db db' : NotesDb) (d : Digest) (notes : List Note) : Prop where
  sound : Sound db' given r
  named : Named db'.digests
  claimed : ClaimedFor req db' d notes
  ages : ∀ d' ∈ db'.digests.rows, ClaimedBy db' d'.digestId → d'.digestId ≠ d.digestId →
    ∃ d₀ ∈ db.digests.rows, ClaimedBy db d₀.digestId ∧ d₀.digestId = d'.digestId ∧
      d₀.channelId = d'.channelId ∧ d₀.localDate = d'.localDate

theorem afterClaim (h : Sound db given r) (hnamed : Named db.digests)
    (hreq : req.digestId = digestName req.channelId req.localDate)
    (hclaim : claimDigest req db = .ok ((d, notes), db')) :
    AfterClaim req r given db db' d notes := by
  rcases claimDigest_cases hclaim with ⟨hfound, rfl, rfl⟩ | ⟨rfl, rfl, digests, hinsert, rfl⟩
  · have hmem := List.mem_of_find?_eq_some hfound
    have hsame := List.find?_some hfound
    simp only [Bool.and_eq_true, decide_eq_true_eq] at hsame
    refine ⟨h, hnamed, ⟨hmem, hsame.1, hsame.2, fun n hn hlink => ⟨n, ?_, rfl⟩⟩, ?_⟩
    · exact mem_selectNotes.2 ⟨hn, by simpa using hlink⟩
    · exact fun d' hd' hclaimed _ => ⟨d', hd', hclaimed, rfl, rfl, rfl⟩
  · have hfresh : db.digests.find? req.digestId = none := (Table.insert?_eq_some hinsert).1
    have hrows := fun x => @Table.mem_insert? _ _ _ _ _ _ _ x hinsert
    refine ⟨?_, fun d' hd' => ?_, ⟨(hrows _).2 (.inr rfl), rfl, rfl, fun n' hn' hlink => ?_⟩,
      fun d' hd' hclaimed hother => ?_⟩
    · exact h.claim hinsert
    · rcases (hrows d').1 hd' with hold | rfl
      · exact hnamed d' hold
      · exact hreq
    · obtain ⟨n, hn, rfl⟩ := Table.mem_update.1 hn'
      split at hlink
      · next htaken =>
        obtain ⟨m, hm, hkey⟩ := List.mem_map.1 (of_decide_eq_true htaken)
        obtain rfl := db.notes.key_injective (mem_claimable hm).1 hn hkey
        rw [if_pos htaken]
        exact ⟨m, hm, rfl⟩
      · obtain ⟨d', hd'⟩ := h.linked n hn _ hlink
        have hnone : db.digests.find? req.digestId = some d' := hd'
        rw [hfresh] at hnone
        cases hnone
    · have hold : d' ∈ db.digests.rows := by
        rcases (hrows d').1 hd' with hold | rfl
        · exact hold
        · exact absurd rfl hother
      obtain ⟨n', hn', hstatus, hlink⟩ := hclaimed
      obtain ⟨n, hn, rfl⟩ := Table.mem_update.1 hn'
      refine ⟨d', hold, ⟨n, hn, ?_⟩, rfl, rfl, rfl⟩
      split at hlink
      · exact absurd (Option.some.inj hlink).symm hother
      · next htaken =>
        rw [if_neg htaken] at hstatus
        exact ⟨hstatus, hlink⟩

theorem digestText_ne_nil (body : Str) : strip (digestText day body) ≠ [] := by
  rw [digestText, strip_strip]
  have hstar : codePoint '*' ∈ text "**Evening notes - " ++ LocalClock.dayTitle day ++ text "**\n\n" ++
      body := by
    rw [List.append_assoc, List.append_assoc]
    exact List.mem_append_left _ (List.mem_map_of_mem (by simp))
  exact strip_ne_nil hstar (by decide)

/-- What the delivery client is handed is kept on record. -/
def Records.hand (r : Records) : Except PyError (Option Prepared) → Records
  | .ok (some p) => { r with returned := p.digestId :: r.returned }
  | .ok none | .error _ => r

omit [LocalClock] in
theorem sound_parts {id summary : Str} (h : Sound db given r) {row : Digest}
    (hrow : db.digests.find? id = some row) (hsummary : summaryOf row ≠ []) :
    Sound db given (r.hand (.ok (preparedParts c id summary (some row)))) := by
  unfold preparedParts
  dsimp only
  split
  · exact h
  · exact h.hand hrow hsummary

/-- The state after the summary of a digest, with what the delivery client is handed. -/
structure AfterSummary (c : PrivateNotesChannelConfig) (r : Records) (s s' : Service) (id : Str)
    (reply : Except PyError (Str × Option Digest)) : Prop where
  sound : Sound s'.db s'.compiled (r.hand (reply.map fun p => preparedParts c id p.1 p.2))
  named : Named s'.db.digests
  ages : Ages s.db s'.db
  retained : s'.retained = s.retained

theorem afterSummary {answer : Except PyError (Option Str)}
    (h : Sound s.db s.compiled r) (hnamed : Named s.db.digests)
    (hclaimed : ClaimedFor req s.db d notes) :
    AfterSummary c r s (s.summarize d.digestId day answer d notes).2 d.digestId
      (s.summarize d.digestId day answer d notes).1 := by
  have hfind : s.db.digests.find? d.digestId = some d := Table.find?_of_mem hclaimed.mem
  unfold Service.summarize
  split
  · next hsummary => exact ⟨sound_parts h hfind hsummary, hnamed, Ages.refl _, rfl⟩
  · have hgive : ∀ q ∈ s.compiled, q ∈ (d.digestId, notes.map notePayload) :: s.compiled :=
      fun q hq => List.mem_cons_of_mem _ hq
    cases hcompile : compile answer (notes.map notePayload) with
    | error e =>
      simp only [hcompile]
      exact ⟨h.give hgive, hnamed, Ages.refl _, rfl⟩
    | ok body =>
      simp only [hcompile]
      have hsaved : Sound (saveDigestSummary d.digestId (digestText day body) s.db)
          ((d.digestId, notes.map notePayload) :: s.compiled) r := by
        refine (h.give hgive).save (digestText_ne_nil body) fun n hn hlink => ?_
        obtain ⟨m, hm, hpayload⟩ := hclaimed.covered n hn hlink
        refine ⟨_, List.mem_cons_self, rfl, ?_⟩
        rw [← hpayload]
        exact List.mem_map_of_mem hm
      have hrow : (saveDigestSummary d.digestId (digestText day body) s.db).digests.find? d.digestId =
          some ((summarized (digestText day body)).apply d) := by
        rw [saveDigestSummary, find?_updateDigest, hfind, Option.map_some, if_pos rfl]
      refine ⟨?_, hnamed.update (fun _ => rfl) fun _ => rfl,
        ages_updateDigest (fun _ => rfl) fun _ => rfl, rfl⟩
      rw [hrow]
      exact sound_parts hsaved hrow (digestText_ne_nil body)

/-- A digest holds notes that it has held before, or is that of this channel and day. -/
def AgesOrNew (c : PrivateNotesChannelConfig) (day : Fin 3652059) (db db' : NotesDb) : Prop :=
  ∀ d' ∈ db'.digests.rows, ClaimedBy db' d'.digestId →
    (∃ d ∈ db.digests.rows, ClaimedBy db d.digestId ∧ d.digestId = d'.digestId ∧
      d.channelId = d'.channelId ∧ d.localDate = d'.localDate) ∨
    d'.channelId = c.channelId ∧ d'.localDate = isoDate day

/-- The state after a call of `prepare_due_digest`. -/
structure AfterPrepare (c : PrivateNotesChannelConfig) (now : Instant) (r : Records) (s s' : Service)
    (reply : Except PyError (Option Prepared)) : Prop where
  sound : Sound s'.db s'.compiled (r.hand reply)
  named : Named s'.db.digests
  ages : Ages s.db s'.db ∨ ∃ t, localNow c now = .ok t ∧ c.scheduled ≤ t.time ∧
    s'.retained (c.guildId, c.channelId) = some (isoDate t.day) ∧ AgesOrNew c t.day s.db s'.db

theorem afterPrepare (h : Sound s.db s.compiled r) (hnamed : Named s.db.digests)
    (answer : Except PyError (Option Str)) :
    AfterPrepare c now r s (s.prepareDueDigest c now answer).2 (s.prepareDueDigest c now answer).1 := by
  unfold Service.prepareDueDigest
  cases ht : localNow c now with
  | error e => exact ⟨h, hnamed, .inl (Ages.refl _)⟩
  | ok t =>
    dsimp only
    split
    · exact ⟨h, hnamed, .inl (Ages.refl _)⟩
    next hdue =>
    unfold Service.prepareDue
    cases hend : s.enforceRetention c now with
    | error e => exact ⟨h, hnamed, .inl (Ages.refl _)⟩
    | ok p =>
      obtain ⟨k, kept⟩ := p
      have hsound := sound_retention h hend
      have hkeptNamed : Named kept.db.digests := by
        rw [digests_retention hend]
        exact hnamed
      have hages := ages_retention hend
      dsimp only
      cases hclaim : claimDigest (claimRequest c (isoDate t.day)) kept.db with
      | error e => exact ⟨hsound, hkeptNamed, .inl hages⟩
      | ok q =>
        obtain ⟨⟨d, notes⟩, db⟩ := q
        have hafter := afterClaim hsound hkeptNamed rfl hclaim
        have hid : d.digestId = digestName c.channelId (isoDate t.day) := by
          rw [hafter.named d hafter.claimed.mem, hafter.claimed.channelId, hafter.claimed.localDate]
          rfl
        obtain ⟨-, ⟨t', ht', hretained⟩, -⟩ := enforceRetention_cases hend
        rw [ht] at ht'
        obtain rfl := Except.ok.inj ht'
        have hnew : AgesOrNew c t.day s.db db := by
          intro d' hd' hclaimed
          by_cases hsame : d'.digestId = d.digestId
          · obtain rfl := db.digests.key_injective hd' hafter.claimed.mem hsame
            exact .inr ⟨hafter.claimed.channelId, hafter.claimed.localDate⟩
          · obtain ⟨d₁, hd₁, hclaimed₁, hid₁, hchannel₁, hdate₁⟩ :=
              hafter.ages d' hd' hclaimed hsame
            obtain ⟨d₀, hd₀, hclaimed₀, hid₀, hchannel₀, hdate₀⟩ := hages d₁ hd₁ hclaimed₁
            exact .inl ⟨d₀, hd₀, hclaimed₀, hid₀.trans hid₁, hchannel₀.trans hchannel₁,
              hdate₀.trans hdate₁⟩
        dsimp only
        split
        · have hsummary : AfterSummary c r { kept with db }
              (Service.summarize d.digestId t.day answer d notes { kept with db }).2 d.digestId
              (Service.summarize d.digestId t.day answer d notes { kept with db }).1 :=
            afterSummary hafter.sound hafter.named hafter.claimed
          rw [← hid]
          refine ⟨hsummary.sound, hsummary.named,
            .inr ⟨t, ht, Nat.le_of_not_lt hdue, ?_, fun d' hd' hclaimed => ?_⟩⟩
          · rw [hsummary.retained]
            exact hretained
          · obtain ⟨d₁, hd₁, hclaimed₁, hid₁, hchannel₁, hdate₁⟩ := hsummary.ages d' hd' hclaimed
            rcases hnew d₁ hd₁ hclaimed₁ with ⟨d₀, hd₀, hclaimed₀, hid₀, hchannel₀, hdate₀⟩ | hthis
            · exact .inl ⟨d₀, hd₀, hclaimed₀, hid₀.trans hid₁, hchannel₀.trans hchannel₁,
                hdate₀.trans hdate₁⟩
            · rw [hchannel₁, hdate₁] at hthis
              exact .inr hthis
        · exact ⟨hafter.sound, hafter.named, .inr ⟨t, ht, Nat.le_of_not_lt hdue, hretained, hnew⟩⟩

/-- A digest with claimed notes is handed out at a due time of its local day. -/
theorem prepareDueDigest_returns (h : Sound s.db s.compiled r) (hnamed : Named s.db.digests)
    (hd : d ∈ s.db.digests.rows) (hclaimed : ClaimedBy s.db d.digestId)
    (hchannel : c.channelId = d.channelId) (ht : localNow c now = .ok t)
    (hdate : isoDate t.day = d.localDate) (hdue : c.scheduled ≤ t.time)
    (hretention : s.retained (c.guildId, c.channelId) = some (isoDate t.day) ∨
      c.rawNoteRetentionDays * 86400000000 ≤ now.val) :
    ∃ p, (s.prepareDueDigest c now (.ok none)).1 = .ok (some p) ∧ p.digestId = d.digestId := by
  obtain ⟨k, kept, hend⟩ := enforceRetention_ok ht hretention
  have hdigests := digests_retention hend
  have hon : digestOn kept.db.digests c.channelId (isoDate t.day) = some d := by
    rw [hdigests, hchannel, hdate]
    exact hnamed.digestOn hd
  obtain ⟨n, hn, hstatus, hlink⟩ := hclaimed
  obtain ⟨d', hd', hlink', hdeliverable⟩ := h.live n hn hstatus
  rw [hlink] at hlink'
  obtain rfl := s.db.digests.key_injective hd hd' (Option.some.inj hlink')
  have hid : digestName c.channelId (isoDate t.day) = d.digestId := by
    rw [hchannel, hdate, ← hnamed d hd]
  have hparts : ∀ summary row, strip summary ≠ [] →
      ∃ p, preparedParts c d.digestId summary row = some p ∧ p.digestId = d.digestId := by
    intro summary row hsummary
    have hne : splitDiscordMessage discordPartChars maxDiscordParts summary ≠ [] :=
      splitDiscordMessage_ne_nil (by decide) hsummary
    exact ⟨_, if_neg hne, rfl⟩
  have hreply : (s.prepareDueDigest c now (.ok none)).1 =
      (Service.summarize d.digestId t.day (.ok none) d
        (selectNotes kept.db.notes fun n => n.digestId = some d.digestId) kept).1.map
          fun p => preparedParts c d.digestId p.1 p.2 := by
    unfold Service.prepareDueDigest
    simp only [ht, if_neg (Nat.not_lt.2 hdue)]
    unfold Service.prepareDue
    simp only [hend, claimDigest, claimRequest, hon, hdeliverable, if_true, hid]
  rw [hreply, Service.summarize]
  split
  · next hsummary =>
    obtain ⟨p, hp, hpid⟩ := hparts (strip (d.summaryText.getD [])) (some d)
      (by rw [strip_strip]; exact hsummary)
    exact ⟨p, congrArg Except.ok hp, hpid⟩
  · obtain ⟨p, hp, hpid⟩ := hparts (digestText t.day (listedNotes ((selectNotes kept.db.notes
      fun n => n.digestId = some d.digestId).map notePayload))) _ (digestText_ne_nil _)
    exact ⟨p, congrArg Except.ok hp, hpid⟩

/-- A digest that is handed out is that of the local day. -/
theorem prepareDueDigest_digestId {answer : Except PyError (Option Str)} {p : Prepared}
    (h : (s.prepareDueDigest c now answer).1 = .ok (some p)) :
    ∃ t, localNow c now = .ok t ∧ p.digestId = digestName c.channelId (isoDate t.day) := by
  have hparts : ∀ {id summary row}, preparedParts c id summary row = some p → p.digestId = id := by
    intro id summary row hprepared
    unfold preparedParts at hprepared
    dsimp only at hprepared
    split at hprepared
    · cases hprepared
    · cases hprepared
      rfl
  have hreply : ∀ {id} {r : Except PyError (Str × Option Digest)},
      (r.map fun q => preparedParts c id q.1 q.2) = .ok (some p) → p.digestId = id := by
    intro id r hr
    cases r with
    | error e => cases hr
    | ok q => exact hparts (Except.ok.inj hr)
  unfold Service.prepareDueDigest at h
  cases ht : localNow c now with
  | error e =>
    rw [ht] at h
    cases h
  | ok t =>
    refine ⟨t, rfl, ?_⟩
    rw [ht] at h
    dsimp only at h
    split at h
    · cases h
    unfold Service.prepareDue at h
    split at h
    · cases h
    dsimp only at h
    split at h
    · cases h
    split at h
    · exact hreply h
    · cases h

end Steps

end HardyAI.PrivateNotes
