import HardyAI.PrivateNotes.Service

/-! Who is in charge of a captured note: the queue, a digest that can still be delivered, or the
record of a delivered one. -/

open Foundation

namespace HardyAI.PrivateNotes

section Records

/-- What is known of the calls that have been made: the notes captured, each with its identifier
and its content, the digests handed to the delivery client, and those marked as delivered, each
with its summary. -/
structure Records where
  captured : List (Str × Str)
  returned : List Str
  delivered : List (Str × Str)

def summaryOf (d : Digest) : Str := strip (d.summaryText.getD [])

def shortened (summary : Str) : Bool := isShortened discordPartChars maxDiscordParts summary

/-- The whole content was given to the compiler for a digest that has been delivered in full. -/
def DeliveredInFull (compiled : List (Str × List NotePayload)) (r : Records) (content : Str) : Prop :=
  ∃ p ∈ r.delivered, shortened p.2 = false ∧
    ∃ q ∈ compiled, q.1 = p.1 ∧ ∃ item ∈ q.2, item.text = content

/-- What the store, the calls to the compiler and the records say of one another. -/
structure Sound (db : NotesDb) (given : List (Str × List NotePayload)) (r : Records) : Prop where
  linked : ∀ n ∈ db.notes.rows, ∀ id, n.digestId = some id → ∃ d, db.digests.find? id = some d
  live : ∀ n ∈ db.notes.rows, n.status = .claimed →
    ∃ d ∈ db.digests.rows, n.digestId = some d.digestId ∧ d.deliverable = true
  compiled : ∀ n ∈ db.notes.rows, ∀ d ∈ db.digests.rows, n.digestId = some d.digestId →
    summaryOf d ≠ [] → ∃ q ∈ given, q.1 = d.digestId ∧ notePayload n ∈ q.2
  returned : ∀ id ∈ r.returned, ∃ d, db.digests.find? id = some d ∧ summaryOf d ≠ []
  captured : ∀ p ∈ r.captured,
    (∃ n, db.notes.find? p.1 = some n ∧ (notePayload n).text = p.2 ∧
      (n.status = .digested → DeliveredInFull given r p.2)) ∨
    db.notes.find? p.1 = none ∧ DeliveredInFull given r p.2

variable {db : NotesDb} {given given' : List (Str × List NotePayload)} {r : Records}
  {notes : NoteTable} {digests : DigestTable} {id : Str}

theorem DeliveredInFull.mono {r' : Records} {content : Str} (h : DeliveredInFull given r content)
    (hgiven : ∀ q ∈ given, q ∈ given') (hdelivered : ∀ p ∈ r.delivered, p ∈ r'.delivered) :
    DeliveredInFull given' r' content := by
  obtain ⟨p, hp, hfull, q, hq, hdigest, item, hitem, htext⟩ := h
  exact ⟨p, hdelivered p hp, hfull, q, hgiven q hq, hdigest, item, hitem, htext⟩

/-- The notes of a purge have been digested. -/
theorem Sound.purge (h : Sound db given r) {g : Note → Bool}
    (hg : ∀ n, g n = true → n.status = .digested) :
    Sound { db with notes := db.notes.delete g } given r := by
  have hkept : ∀ n, n ∈ (db.notes.delete g).rows → n ∈ db.notes.rows :=
    fun n hn => (List.mem_filter.1 hn).1
  refine ⟨fun n hn => h.linked n (hkept n hn), fun n hn => h.live n (hkept n hn),
    fun n hn => h.compiled n (hkept n hn), h.returned, fun p hp => ?_⟩
  rw [Table.find?_delete]
  rcases h.captured p hp with ⟨n, hfind, htext, hdigested⟩ | ⟨hnone, hfull⟩
  · rw [hfind, Option.filter_some]
    cases hn : g n with
    | true => exact .inr ⟨rfl, hdigested (hg n hn)⟩
    | false => exact .inl ⟨n, rfl, htext, hdigested⟩
  · rw [hnone]
    exact .inr ⟨rfl, hfull⟩

theorem Sound.give (h : Sound db given r) (hgiven : ∀ q ∈ given, q ∈ given') :
    Sound db given' r := by
  refine ⟨h.linked, h.live, fun n hn d hd hlink hsummary => ?_, h.returned, fun p hp => ?_⟩
  · obtain ⟨q, hq, hpayload⟩ := h.compiled n hn d hd hlink hsummary
    exact ⟨q, hgiven q hq, hpayload⟩
  · rcases h.captured p hp with ⟨n, hfind, htext, hdigested⟩ | ⟨hnone, hfull⟩
    · exact .inl ⟨n, hfind, htext, fun hn => (hdigested hn).mono hgiven fun _ hp => hp⟩
    · exact .inr ⟨hnone, hfull.mono hgiven fun _ hp => hp⟩

/-- A digest of the delivery client has its summary. -/
theorem Sound.hand (h : Sound db given r) {d : Digest} (hd : db.digests.find? id = some d)
    (hsummary : summaryOf d ≠ []) : Sound db given { r with returned := id :: r.returned } := by
  refine ⟨h.linked, h.live, h.compiled, fun id' hid => ?_, h.captured⟩
  rcases List.mem_cons.1 hid with rfl | hold
  · exact ⟨d, hd, hsummary⟩
  · exact h.returned id' hold

section Digests

variable {f : Table.Assignment Digest.digestId}

theorem find?_updateDigest (k : Str) :
    (db.digests.update (fun d => d.digestId = id) f).find? k =
      (db.digests.find? k).map fun d => if d.digestId = id then f.apply d else d := by
  rw [Table.find?_update]
  simp only [decide_eq_true_eq]

/-- A change of one digest that keeps it deliverable and gives it a summary of its notes only. -/
theorem Sound.updateDigest (h : Sound db given r)
    (hlive : ∀ d, d.deliverable = true → (f.apply d).deliverable = true)
    (hsummary : ∀ d, summaryOf d ≠ [] → summaryOf (f.apply d) ≠ [])
    (hcompiled : ∀ n ∈ db.notes.rows, ∀ d ∈ db.digests.rows, d.digestId = id →
      n.digestId = some id → summaryOf (f.apply d) ≠ [] →
        ∃ q ∈ given, q.1 = id ∧ notePayload n ∈ q.2) :
    Sound { db with digests := db.digests.update (fun d => d.digestId = id) f } given r := by
  refine ⟨fun n hn id' hid => ?_, fun n hn hclaimed => ?_, fun n hn d' hd' hlink hfull => ?_,
    fun id' hid => ?_, h.captured⟩
  · obtain ⟨d, hd⟩ := h.linked n hn id' hid
    exact ⟨_, by rw [find?_updateDigest, hd, Option.map_some]⟩
  · obtain ⟨d, hd, hlink, hdeliverable⟩ := h.live n hn hclaimed
    refine ⟨if d.digestId = id then f.apply d else d, Table.mem_update.2 ⟨d, hd, by simp⟩, ?_, ?_⟩
    · rw [hlink, apply_ite Digest.digestId, f.keeps, ite_self]
    · split
      · exact hlive d hdeliverable
      · exact hdeliverable
  · obtain ⟨d, hd, rfl⟩ := Table.mem_update.1 hd'
    simp only [decide_eq_true_eq] at hlink hfull ⊢
    split at hlink
    · next hid =>
      rw [if_pos hid] at hfull ⊢
      rw [f.keeps, hid] at hlink ⊢
      exact hcompiled n hn d hd hid hlink hfull
    · next hid =>
      rw [if_neg hid] at hfull ⊢
      exact h.compiled n hn d hd hlink hfull
  · obtain ⟨d, hd, hfull⟩ := h.returned id' hid
    refine ⟨_, by rw [find?_updateDigest, hd, Option.map_some], ?_⟩
    split
    · exact hsummary d hfull
    · exact hfull

end Digests

section Notes

variable {f : Table.Assignment Note.noteId} {g : Note → Bool}

/-- A change of the notes of one digest, which then is no longer deliverable. -/
theorem Sound.closeDigest (h : Sound db given r) {f : Table.Assignment Digest.digestId}
    {fn : Table.Assignment Note.noteId} {r' : Records}
    (hsummary : ∀ d, summaryOf (f.apply d) = summaryOf d)
    (hpayload : ∀ n, notePayload (fn.apply n) = notePayload n)
    (hunclaimed : ∀ n, (fn.apply n).status ≠ .claimed)
    (hlink : ∀ n ∈ db.notes.rows, ∀ k, n.digestId = some id → (fn.apply n).digestId = some k → k = id)
    (hreturned : r'.returned = r.returned) (hcaptured : r'.captured = r.captured)
    (hdelivered : ∀ p ∈ r.delivered, p ∈ r'.delivered)
    (hdigested : ∀ n ∈ db.notes.rows, n.digestId = some id → (fn.apply n).status = .digested →
      DeliveredInFull given r' (notePayload n).text) :
    Sound
      { digests := db.digests.update (fun d => d.digestId = id) f
        notes := db.notes.update (fun n => n.digestId = some id) fn } given r' := by
  have hfind : ∀ k d, db.digests.find? k = some d →
      ∃ d', (db.digests.update (fun d => d.digestId = id) f).find? k = some d' ∧
        summaryOf d' = summaryOf d := by
    intro k d hd
    refine ⟨_, by rw [find?_updateDigest, hd, Option.map_some], ?_⟩
    rw [apply_ite summaryOf, hsummary, ite_self]
  refine ⟨fun n' hn' k hk => ?_, fun n' hn' hclaimed => ?_, fun n' hn' d' hd' hlinked hfull => ?_,
    fun k hk => ?_, fun p hp => ?_⟩
  · obtain ⟨n, hn, rfl⟩ := Table.mem_update.1 hn'
    simp only [decide_eq_true_eq] at hk
    split at hk
    · next hid =>
      obtain rfl := hlink n hn k hid hk
      obtain ⟨d, hd⟩ := h.linked n hn k hid
      exact (hfind k d hd).imp fun _ hd' => hd'.1
    · obtain ⟨d, hd⟩ := h.linked n hn k hk
      exact (hfind k d hd).imp fun _ hd' => hd'.1
  · obtain ⟨n, hn, rfl⟩ := Table.mem_update.1 hn'
    simp only [decide_eq_true_eq] at hclaimed ⊢
    split at hclaimed
    · exact absurd hclaimed (hunclaimed n)
    · next hid =>
      obtain ⟨d, hd, hlinked, hdeliverable⟩ := h.live n hn hclaimed
      have hother : d.digestId ≠ id := by
        rintro rfl
        exact hid hlinked
      rw [if_neg hid]
      exact ⟨d, Table.mem_update.2 ⟨d, hd, by simp [hother]⟩, hlinked, hdeliverable⟩
  · obtain ⟨n, hn, rfl⟩ := Table.mem_update.1 hn'
    obtain ⟨d, hd, rfl⟩ := Table.mem_update.1 hd'
    have hid : (if decide (d.digestId = id) = true then f.apply d else d).digestId = d.digestId := by
      split
      · exact f.keeps d
      · rfl
    have hsame : summaryOf (if decide (d.digestId = id) = true then f.apply d else d) =
        summaryOf d := by
      split
      · exact hsummary d
      · rfl
    rw [hid] at hlinked ⊢
    rw [hsame] at hfull
    have hold : n.digestId = some d.digestId := by
      simp only [decide_eq_true_eq] at hlinked
      split at hlinked
      · next hnote =>
        rw [hlink n hn _ hnote hlinked, hnote]
      · exact hlinked
    obtain ⟨q, hq, hdigest, hmem⟩ := h.compiled n hn d hd hold hfull
    refine ⟨q, hq, hdigest, ?_⟩
    rw [apply_ite notePayload, hpayload, ite_self]
    exact hmem
  · rw [hreturned] at hk
    obtain ⟨d, hd, hfull⟩ := h.returned k hk
    obtain ⟨d', hd', hsame⟩ := hfind k d hd
    exact ⟨d', hd', by rw [hsame]; exact hfull⟩
  · rw [hcaptured] at hp
    rw [Table.find?_update]
    rcases h.captured p hp with ⟨n, hn, htext, hdone⟩ | ⟨hnone, hfull⟩
    · refine .inl ⟨_, by rw [hn, Option.map_some], ?_, ?_⟩
      · rw [apply_ite notePayload, hpayload, ite_self]
        exact htext
      · simp only [decide_eq_true_eq]
        split
        · next hid =>
          intro hstatus
          rw [← htext]
          exact hdigested n (Table.mem_of_find? hn) hid hstatus
        · exact fun hstatus => (hdone hstatus).mono (fun _ hq => hq) hdelivered
    · rw [hnone]
      exact .inr ⟨rfl, hfull.mono (fun _ hq => hq) hdelivered⟩

/-- A digest that is marked as delivered has been given to the compiler with all its notes. -/
theorem Sound.deliver (h : Sound db given r) (hid : id ∈ r.returned) {d : Digest}
    (hd : db.digests.find? id = some d) (hfull : shortened (summaryOf d) = false) :
    Sound (markDelivered id db) given
      { r with delivered := (id, summaryOf d) :: r.delivered } := by
  refine h.closeDigest (fun _ => rfl) (fun _ => rfl) (fun _ => nofun) ?_ rfl rfl
    (fun p hp => List.mem_cons_of_mem _ hp) ?_
  · intro n _ k hn hk
    exact Option.some.inj (hk.symm.trans hn)
  · intro n hn hlinked _
    obtain ⟨d', hd', hsummary⟩ := h.returned id hid
    rw [hd] at hd'
    obtain rfl := Option.some.inj hd'
    have hkey : d.digestId = id := Table.key_of_find? hd
    obtain ⟨q, hq, hdigest, hmem⟩ :=
      h.compiled n hn d (Table.mem_of_find? hd) (by rw [hlinked, hkey]) hsummary
    exact ⟨_, List.mem_cons_self, hfull, q, hq, by rw [hdigest, hkey], _, hmem, rfl⟩

theorem Sound.fail (h : Sound db given r) (maxAttempts : Nat)
    (hmax : max 1 maxAttempts = maxDeliveryAttempts) :
    Sound (markDeliveryFailed id maxAttempts db) given r := by
  unfold markDeliveryFailed
  dsimp only
  split
  · refine h.closeDigest (fun _ => rfl) (fun _ => rfl) (fun _ hlive => by cases hlive)
      (fun n _ k _ hk => ?_) rfl rfl (fun _ hp => hp) fun n _ _ hlive => by cases hlive
    cases hk
  · next halive =>
    refine h.updateDigest (fun d _ => ?_) (fun d hd => hd) fun n hn d hd hid hlinked hsummary => ?_
    · rw [hmax] at halive
      simp [Digest.deliverable, attempted, Nat.lt_of_not_le halive]
    · obtain ⟨q, hq, hdigest, hmem⟩ := h.compiled n hn d hd (by rw [hlinked, hid]) hsummary
      exact ⟨q, hq, by rw [hdigest, hid], hmem⟩

theorem Sound.part (h : Sound db given r) (messageId : Str) :
    Sound (recordDeliveryPart id messageId db) given r := by
  refine h.updateDigest (fun d hd => ?_) (fun d hd => hd) fun n hn d hd hid hlinked hsummary => ?_
  · simp only [Digest.deliverable, Bool.and_eq_true, decide_eq_true_eq] at hd
    simp [Digest.deliverable, partSent, hd.2]
  · obtain ⟨q, hq, hdigest, hmem⟩ := h.compiled n hn d hd (by rw [hlinked, hid]) hsummary
    exact ⟨q, hq, by rw [hdigest, hid], hmem⟩

/-- The summary of a digest whose notes have all been given to the compiler. -/
theorem Sound.save (h : Sound db given r) {summary : Str} (hsummary : strip summary ≠ [])
    (hgiven : ∀ n ∈ db.notes.rows, n.digestId = some id → ∃ q ∈ given, q.1 = id ∧ notePayload n ∈ q.2) :
    Sound (saveDigestSummary id summary db) given r := by
  refine h.updateDigest (fun d hd => ?_) (fun d _ => hsummary) fun n hn d _ _ hlinked _ => ?_
  · simp only [Digest.deliverable, Bool.and_eq_true, decide_eq_true_eq] at hd
    simp [Digest.deliverable, summarized, hd.2]
  · exact hgiven n hn hlinked

end Notes

section Claims

variable {req : ClaimRequest}

theorem mem_claimable {n : Note} (hn : n ∈ claimable req db.notes) :
    n ∈ db.notes.rows ∧ n.status = .pending := by
  have hselected := List.mem_of_mem_take hn
  rw [selectNotes, List.mem_mergeSort, List.mem_filter] at hselected
  simp only [Bool.and_eq_true, decide_eq_true_eq] at hselected
  exact ⟨hselected.1, hselected.2.2⟩

/-- A new digest takes pending notes. -/
theorem Sound.claim (h : Sound db given r)
    (hinsert : db.digests.insert? (newDigest req (claimable req db.notes)) = some digests) :
    Sound
      { notes := db.notes.update (fun n => n.noteId ∈ (claimable req db.notes).map Note.noteId)
          (claimFor req.digestId)
        digests } given r := by
  have hfresh : db.digests.find? req.digestId = none := (Table.insert?_eq_some hinsert).1
  have hfind : ∀ k d, db.digests.find? k = some d → digests.find? k = some d := by
    intro k d hd
    rw [Table.find?_insert? hinsert, if_neg, hd]
    rintro rfl
    have hnone : db.digests.find? req.digestId = some d := hd
    rw [hfresh] at hnone
    cases hnone
  have hnew : newDigest req (claimable req db.notes) ∈ digests.rows :=
    (Table.mem_insert? hinsert).2 (.inr rfl)
  refine ⟨fun n' hn' k hk => ?_, fun n' hn' hclaimed => ?_, fun n' hn' d hd hlinked hfull => ?_,
    fun k hk => ?_, fun p hp => ?_⟩
  · obtain ⟨n, hn, rfl⟩ := Table.mem_update.1 hn'
    split at hk
    · obtain rfl : req.digestId = k := Option.some.inj hk
      exact ⟨_, Table.find?_of_mem hnew⟩
    · obtain ⟨d, hd⟩ := h.linked n hn k hk
      exact ⟨d, hfind k d hd⟩
  · obtain ⟨n, hn, rfl⟩ := Table.mem_update.1 hn'
    split at hclaimed
    · next htaken =>
      rw [if_pos htaken]
      refine ⟨_, hnew, rfl, ?_⟩
      have hsome : claimable req db.notes ≠ [] := by
        intro hnil
        rw [hnil] at htaken
        simp at htaken
      simp [Digest.deliverable, newDigest, hsome, maxDeliveryAttempts]
    · next htaken =>
      rw [if_neg htaken]
      obtain ⟨d, hd, hlinked, hdeliverable⟩ := h.live n hn hclaimed
      exact ⟨d, (Table.mem_insert? hinsert).2 (.inl hd), hlinked, hdeliverable⟩
  · obtain ⟨n, hn, rfl⟩ := Table.mem_update.1 hn'
    rcases (Table.mem_insert? hinsert).1 hd with hold | rfl
    · have hother : req.digestId ≠ d.digestId := by
        intro hsame
        rw [hsame, Table.find?_of_mem hold] at hfresh
        cases hfresh
      split at hlinked
      · exact absurd (Option.some.inj hlinked) hother
      · next htaken =>
        rw [if_neg htaken]
        exact h.compiled n hn d hold hlinked hfull
    · split at hlinked
      · next htaken =>
        have hsome : claimable req db.notes ≠ [] := by
          intro hnil
          rw [hnil] at htaken
          simp at htaken
        exact absurd (by simp [summaryOf, newDigest, hsome, strip]) hfull
      · obtain ⟨d, hd'⟩ := h.linked n hn _ hlinked
        have hnone : db.digests.find? req.digestId = some d := hd'
        rw [hfresh] at hnone
        cases hnone
  · obtain ⟨d, hd, hfull⟩ := h.returned k hk
    exact ⟨d, hfind k d hd, hfull⟩
  · rw [Table.find?_update]
    rcases h.captured p hp with ⟨n, hn, htext, hdone⟩ | ⟨hnone, hfull⟩
    · refine .inl ⟨_, by rw [hn, Option.map_some], ?_, ?_⟩
      · split
        · exact htext
        · exact htext
      · split
        · exact fun hsame => by cases hsame
        · exact hdone
    · rw [hnone]
      exact .inr ⟨rfl, hfull⟩

/-- A new note waits in the queue. -/
theorem Sound.capture (h : Sound db given r) {n : Note} {content : Str}
    (hinsert : db.notes.insert? n = some notes) (hstatus : n.status = .pending)
    (hlink : n.digestId = none) (htext : (notePayload n).text = content)
    (hfresh : ∀ p ∈ r.captured, p.1 ≠ n.noteId) :
    Sound { db with notes } given { r with captured := (n.noteId, content) :: r.captured } := by
  have hmem : ∀ n', n' ∈ notes.rows → n' ∈ db.notes.rows ∨ n' = n :=
    fun n' => (Table.mem_insert? hinsert).1
  refine ⟨fun n' hn' k hk => ?_, fun n' hn' hclaimed => ?_, fun n' hn' d hd hlinked hfull => ?_,
    h.returned, fun p hp => ?_⟩
  · rcases hmem n' hn' with hold | rfl
    · exact h.linked n' hold k hk
    · rw [hlink] at hk
      cases hk
  · rcases hmem n' hn' with hold | rfl
    · exact h.live n' hold hclaimed
    · rw [hstatus] at hclaimed
      cases hclaimed
  · rcases hmem n' hn' with hold | rfl
    · exact h.compiled n' hold d hd hlinked hfull
    · rw [hlink] at hlinked
      cases hlinked
  · rw [Table.find?_insert? hinsert]
    rcases List.mem_cons.1 hp with rfl | hold
    · refine .inl ⟨n, if_pos rfl, htext, fun hdone => ?_⟩
      rw [hstatus] at hdone
      cases hdone
    · rw [if_neg (Ne.symm (hfresh p hold))]
      exact h.captured p hold

end Claims

end Records

end HardyAI.PrivateNotes
