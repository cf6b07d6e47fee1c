import HardyAI.Email.Store
import HardyAI.Foundation.IsoOrder
import HardyAI.Foundation.Trace

/-! The two writers of reference sets, and which of the sets a channel reads. -/

open Foundation

namespace HardyAI.Email

section Stamps

/-- The typed tools, and the service that answers in words. -/
inductive Writer
  | typed | service
  deriving DecidableEq

/-- `_iso_utc` of the typed tools. -/
def isoUtcSeconds (value : Instant) : Str :=
  let normalized := isoUtc value.floor
  if (text "+00:00").isSuffixOf normalized then
    normalized.take (normalized.length - 6) ++ text "Z"
  else normalized

def Writer.stamp : Writer → Instant → Str
  | .typed => isoUtcSeconds
  | .service => isoUtc

theorem isoUtcSeconds_eq (t : Instant) : isoUtcSeconds t = isoBody t ++ text "Z" := by
  have hoffset : (text "+00:00").length = 6 := rfl
  have hsuffix : (text "+00:00").isSuffixOf (isoUtc t.floor) = true := by
    rw [isoUtc_floor, List.isSuffixOf_iff_suffix]
    exact List.suffix_append _ _
  rw [isoUtcSeconds, if_pos hsuffix, isoUtc_floor, List.length_append, hoffset,
    Nat.add_sub_cancel, List.take_left]

variable {a b : Instant} {writer reader : Writer}

theorem stamp_lt_of_second (h : a.second < b.second) : writer.stamp a < reader.stamp b := by
  have hlength : (isoBody a).length = (isoBody b).length := by
    rw [length_isoBody, length_isoBody]
  cases writer <;> cases reader <;>
    simp only [Writer.stamp, isoUtcSeconds_eq, isoUtc_body a, isoUtc_body b] <;>
    exact append_lt_append hlength (.inl (isoBody_lt h))

/-- A fraction and an offset both stand before the `Z`. -/
theorem isoFraction_lt_mark (micro : Nat) : isoFraction micro < text "Z" := by
  have hmark : text "Z" = [90] := by decide
  have hsign : text "+00:00" = 43 :: text "00:00" := by decide
  have hpoint : text "." = [46] := by decide
  rw [isoFraction, hmark]
  split
  · rw [List.nil_append, hsign, List.cons_lt_cons_iff]
    exact .inl (by decide)
  · rw [hpoint, List.append_assoc, List.singleton_append, List.cons_lt_cons_iff]
    exact .inl (by decide)

theorem service_lt_typed (h : a.second = b.second) : Writer.service.stamp a < Writer.typed.stamp b := by
  rw [Writer.stamp, Writer.stamp, isoUtcSeconds_eq, isoUtc_body, isoBody_of_eq h]
  exact List.append_left_lt (isoFraction_lt_mark _)

theorem typed_eq_typed (h : a.second = b.second) : Writer.typed.stamp a = Writer.typed.stamp b := by
  rw [Writer.stamp, isoUtcSeconds_eq, isoUtcSeconds_eq, isoBody_of_eq h]

theorem second_mono (h : a ≤ b) : a.second ≤ b.second := Nat.div_le_div_right h

/-- Of two texts of times in order, the later one is smaller only where the typed tools wrote the
earlier time and the service a time of the same second. -/
theorem stamp_le_iff (h : a ≤ b) : writer.stamp a ≤ reader.stamp b ↔
    ¬(writer = .typed ∧ reader = .service ∧ a.second = b.second) := by
  rcases Nat.lt_or_ge a.second b.second with hlt | hge
  · have hless : writer.stamp a < reader.stamp b := stamp_lt_of_second hlt
    have hne : a.second ≠ b.second := by omega
    simp [hless.le, hne]
  · have hsame : a.second = b.second := le_antisymm (second_mono h) hge
    cases writer with
    | typed =>
      cases reader with
      | typed => simp [typed_eq_typed hsame]
      | service => simp [hsame, service_lt_typed hsame.symm]
    | service =>
      cases reader with
      | typed => simp [(service_lt_typed hsame).le]
      | service =>
        have hle : Writer.service.stamp a ≤ Writer.service.stamp b := isoUtc_strictMono.monotone h
        simp [hle]

/-- In the second in which a set expires a text tells whether it is over only where both sides
write fractions; the `Z` of a set is later, and that of a reader is later still or the same. -/
def Judged (writer reader : Writer) (expires now : Instant) : Prop :=
  expires.second = now.second →
    match writer, reader with
    | .service, .service => True
    | .typed, .service => now < expires
    | _, .typed => expires ≤ now

theorem judged_iff {expires now : Instant} :
    (reader.stamp now < writer.stamp expires ↔ now < expires) ↔
      Judged writer reader expires now := by
  unfold Judged
  rcases Nat.lt_trichotomy now.second expires.second with hlt | hsame | hgt
  · have hless : reader.stamp now < writer.stamp expires := stamp_lt_of_second hlt
    have hbefore : now < expires := by
      by_contra hnot
      have := second_mono (not_lt.1 hnot)
      omega
    have hne : expires.second ≠ now.second := by omega
    simp [hless, hbefore, hne]
  · cases writer with
    | typed =>
      cases reader with
      | typed => simp [typed_eq_typed hsame, hsame.symm]
      | service => simp [service_lt_typed hsame, hsame.symm]
    | service =>
      cases reader with
      | typed => simp [lt_asymm (service_lt_typed hsame.symm), hsame.symm]
      | service => simpa [Writer.stamp] using isoUtc_strictMono.lt_iff_lt
  · have hless : writer.stamp expires < reader.stamp now := stamp_lt_of_second hgt
    have hafter : expires ≤ now := by
      by_contra hnot
      have := second_mono (not_le.1 hnot).le
      omega
    have hne : expires.second ≠ now.second := by omega
    simp [lt_asymm hless, hafter, hne]

instance (writer reader : Writer) (expires now : Instant) :
    Decidable (Judged writer reader expires now) := decidable_of_iff _ judged_iff

end Stamps

section Creations

/-- A call of `create_reference_set`, with the identifier that it generates. -/
structure Creation where
  writer : Writer
  now : Instant
  referenceSetId : Str
  userId : Str
  discordChannelId : Str
  queryText : Str
  messageIds : List Str
  threadIds : List Str
  focusedMessageId : Option Str
  focusedThreadId : Option Str

def Creation.expires (retentionHours : Nat) (c : Creation) : Except PyError Instant :=
  c.now.add (.micros (3600000000 * retentionHours))

def Creation.request (c : Creation) (expires : Instant) : ReferenceSetRequest where
  referenceSetId := c.referenceSetId
  userId := c.userId
  discordChannelId := c.discordChannelId
  queryText := c.queryText
  messageIds := c.messageIds
  threadIds := c.threadIds
  focusedMessageId := c.focusedMessageId
  focusedThreadId := c.focusedThreadId
  createdAt := c.writer.stamp c.now
  expiresAt := c.writer.stamp expires

/-- A set that was created, with the time at which it is over. -/
structure Shown extends Creation where
  expires : Instant

def Shown.row (s : Shown) : ReferenceSet where
  referenceSetId := s.referenceSetId
  userId := s.userId
  discordChannelId := s.discordChannelId
  queryText := (join " " (splitWords s.queryText)).take 4000
  orderedMessageIds := s.messageIds.take 50
  orderedThreadIds := s.threadIds.take 50
  focusedMessageId := s.focusedMessageId
  focusedThreadId := s.focusedThreadId
  createdAt := s.writer.stamp s.now
  expiresAt := s.writer.stamp s.expires

/-- The store, and the sets that were created in it, in their order. -/
structure Creations where
  db : EmailDb
  shown : List Shown

/-- A call leaves everything as it is where its expiry or its row cannot be written. -/
def Creations.add (s : Creations) (c : Creation) : Except PyError Instant → Creations
  | .error _ => s
  | .ok expires =>
    match createReferenceSet (c.request expires) s.db with
    | .error _ => s
    | .ok (_, db) => ⟨db, s.shown ++ [⟨c, expires⟩]⟩

def Creations.step (retentionHours : Nat) (s : Creations) (c : Creation) : Creations :=
  s.add c (c.expires retentionHours)

def creationsAfter (retentionHours : Nat) (cs : List Creation) : Creations :=
  Trace.run (Creations.step retentionHours) ⟨∅, []⟩ cs

variable {retentionHours : Nat} {s : Creations} {cs : List Creation}

theorem createReferenceSet_eq_ok {c : Creation} {expires : Instant} {db db' : EmailDb}
    {row : ReferenceSet} (h : createReferenceSet (c.request expires) db = .ok (row, db')) :
    db'.referenceSets.rows = db.referenceSets.rows ++ [Shown.row ⟨c, expires⟩] := by
  simp only [createReferenceSet, Creation.request] at h
  split at h
  · cases h
  · next sets hinsert =>
    obtain ⟨-, rfl⟩ := Prod.mk.inj (Except.ok.inj h)
    rw [Shown.row, (Table.insert?_eq_some hinsert).2]

theorem add_cases (s : Creations) (c : Creation) (expiry : Except PyError Instant) :
    s.add c expiry = s ∨ ∃ expires db, s.add c expiry = ⟨db, s.shown ++ [⟨c, expires⟩]⟩ ∧
      db.referenceSets.rows = s.db.referenceSets.rows ++ [Shown.row ⟨c, expires⟩] := by
  cases expiry with
  | error e => exact .inl rfl
  | ok expires =>
    cases hcreate : createReferenceSet (c.request expires) s.db with
    | error e => exact .inl (by simp only [Creations.add, hcreate])
    | ok created =>
      refine .inr ⟨expires, created.2, ?_, createReferenceSet_eq_ok hcreate⟩
      simp only [Creations.add, hcreate]

theorem rows_after (cs : List Creation) :
    (creationsAfter retentionHours cs).db.referenceSets.rows =
      (creationsAfter retentionHours cs).shown.map Shown.row := by
  refine @Trace.run_invariant _ _ _ (fun s : Creations =>
    s.db.referenceSets.rows = s.shown.map Shown.row) (fun s c hs => ?_) _ rfl cs
  obtain hsame | ⟨expires, db, hstep, hrows⟩ := add_cases s c (c.expires retentionHours)
  · rw [Creations.step, hsame]
    exact hs
  · rw [Creations.step, hstep, hrows, List.map_append, hs]
    rfl

theorem shown_sublist (cs : List Creation) :
    ((creationsAfter retentionHours cs).shown.map Shown.toCreation).Sublist cs := by
  induction cs using List.reverseRecOn with
  | nil => exact List.Sublist.refl _
  | append_singleton cs c ih =>
    rw [creationsAfter, Trace.run_concat]
    obtain hsame | ⟨expires, db, hstep, -⟩ := add_cases
      (creationsAfter retentionHours cs) c (c.expires retentionHours)
    · rw [← creationsAfter, Creations.step, hsame]
      exact ih.trans (List.sublist_append_left _ _)
    · rw [← creationsAfter, Creations.step, hstep, List.map_append]
      exact ih.append (List.Sublist.refl _)

end Creations

section Reading

/-- Where no row has a later text than the one after it, the last row is the latest. -/
theorem foldl_latest {rows : List ReferenceSet}
    (h : rows.Pairwise fun r r' => r.createdAt ≤ r'.createdAt) :
    rows.foldl ReferenceSet.latest none = rows.getLast? := by
  induction rows using List.reverseRecOn with
  | nil => rfl
  | append_singleton rows r ih =>
    rw [List.pairwise_append] at h
    obtain ⟨hrows, -, hlast⟩ := h
    rw [List.foldl_append, ih hrows, List.getLast?_concat, List.foldl_cons, List.foldl_nil]
    cases hprev : rows.getLast? with
    | none => rfl
    | some best =>
      exact if_pos (hlast best (List.mem_of_getLast? hprev) r (List.mem_singleton_self r))

def Creation.of (userId discordChannelId : Str) (c : Creation) : Bool :=
  c.userId = userId && c.discordChannelId = discordChannelId

/-- The service never writes a set in the second of an earlier set of the typed tools. -/
def OneFormatPerSecond (userId discordChannelId : Str) (cs : List Creation) : Prop :=
  (cs.filter (Creation.of userId discordChannelId)).Pairwise fun c c' =>
    ¬(c.writer = .typed ∧ c'.writer = .service ∧ c.now.second = c'.now.second)

instance (userId discordChannelId : Str) (cs : List Creation) :
    Decidable (OneFormatPerSecond userId discordChannelId cs) :=
  inferInstanceAs (Decidable (List.Pairwise _ _))

/-- The sets of a channel that are not over, in the order of their creation. -/
def Creations.unexpired (s : Creations) (userId discordChannelId : Str) (now : Instant) :
    List Shown :=
  s.shown.filter fun set => set.of userId discordChannelId && now < set.expires

variable {retentionHours : Nat} {cs : List Creation} {userId discordChannelId : Str}

theorem unexpired_pairwise (hsorted : cs.Pairwise fun c c' => c.now ≤ c'.now)
    (hformat : OneFormatPerSecond userId discordChannelId cs) (now : Instant) :
    (((creationsAfter retentionHours cs).unexpired userId discordChannelId now).map
      Shown.row).Pairwise fun r r' => r.createdAt ≤ r'.createdAt := by
  have hboth : (cs.filter (Creation.of userId discordChannelId)).Pairwise fun c c' =>
      c.writer.stamp c.now ≤ c'.writer.stamp c'.now := by
    refine ((hsorted.filter _).and hformat).imp fun {c c'} h => ?_
    exact (stamp_le_iff h.1).2 h.2
  have hmine : (((creationsAfter retentionHours cs).unexpired userId discordChannelId now).map
      Shown.toCreation).Sublist (cs.filter (Creation.of userId discordChannelId)) := by
    have hkept : (((creationsAfter retentionHours cs).unexpired userId discordChannelId now).map
        Shown.toCreation).filter (Creation.of userId discordChannelId) =
          ((creationsAfter retentionHours cs).unexpired userId discordChannelId now).map
            Shown.toCreation := by
      rw [List.filter_eq_self]
      intro c hc
      obtain ⟨set, hset, rfl⟩ := List.mem_map.1 hc
      exact (Bool.and_eq_true _ _ ▸ (List.mem_filter.1 hset).2).1
    rw [← hkept]
    exact ((List.filter_sublist.map _).trans (shown_sublist cs)).filter _
  have hordered := List.Pairwise.sublist hmine hboth
  rw [List.pairwise_map] at hordered ⊢
  exact hordered

/-- In a run in which the service writes no set in the second of an earlier set of the typed tools,
a read that no expiry of a set misleads returns the last set that is not over. -/
theorem latest_of_one_format (userId discordChannelId : Str) (reader : Writer) (now : Instant)
    (hsorted : cs.Pairwise fun c c' => c.now ≤ c'.now)
    (hformat : OneFormatPerSecond userId discordChannelId cs)
    (hjudged : ∀ set ∈ (creationsAfter retentionHours cs).shown,
      set.of userId discordChannelId = true → Judged set.writer reader set.expires now) :
    latestReferenceSet (creationsAfter retentionHours cs).db userId discordChannelId
        (reader.stamp now) =
      ((creationsAfter retentionHours cs).unexpired userId discordChannelId now).getLast?.map
        Shown.row := by
  have hlive : ((creationsAfter retentionHours cs).db.referenceSets.rows.filter
      (ReferenceSet.live userId discordChannelId (reader.stamp now))) =
        ((creationsAfter retentionHours cs).unexpired userId discordChannelId now).map
          Shown.row := by
    rw [rows_after, List.filter_map, Creations.unexpired]
    congr 1
    refine List.filter_congr fun set hset => ?_
    by_cases hmine : set.of userId discordChannelId = true
    · have hexpiry := judged_iff.2 (hjudged set hset hmine)
      rw [hmine, Bool.true_and]
      rw [Creation.of] at hmine
      show (_ && _ && decide (reader.stamp now < set.writer.stamp set.expires)) = _
      rw [decide_eq_decide.2 hexpiry]
      exact (congrArg (· && decide (now < set.expires)) hmine).trans (Bool.true_and _)
    · rw [Bool.not_eq_true] at hmine
      rw [hmine, Bool.false_and]
      exact (congrArg (· && _) hmine).trans (Bool.false_and _)
  rw [latestReferenceSet, hlive, foldl_latest (unexpired_pairwise hsorted hformat now),
    List.getLast?_map]

/-- A call on the first of January 2024, some microseconds after noon. -/
def noonCall (writer : Writer) (micros : Fin 60000000) (id message : String) : Creation where
  writer := writer
  now := ⟨738885 * 86400000000 + 43200000000 + micros.val, by unfold maxMicros; omega⟩
  referenceSetId := id
  userId := "u"
  discordChannelId := "c"
  queryText := "inbox"
  messageIds := [text message]
  threadIds := [text "t"]
  focusedMessageId := some message
  focusedThreadId := some "t"

/-- A minute after noon. -/
def minuteLater : Instant := ⟨738885 * 86400000000 + 43260000000, by decide⟩

/-- Two lists in different seconds, the second of which is read. -/
def separateCalls : List Creation :=
  [noonCall .typed 200000 "r1" "m1", noonCall .service 1700000 "r2" "m2"]

theorem latest_of_one_format_separate :
    latestReferenceSet (creationsAfter 72 separateCalls).db "u" "c"
        (Writer.service.stamp minuteLater) =
      ((creationsAfter 72 separateCalls).unexpired "u" "c" minuteLater).getLast?.map Shown.row :=
  latest_of_one_format "u" "c" .service minuteLater (by decide +kernel) (by decide +kernel)
    (by decide +kernel)

/-- The same two lists within one second: the older one is read, and E1 names its message. -/
theorem older_set_read :
    [noonCall .typed 200000 "r1" "m1", noonCall .service 700000 "r2" "m2"].Pairwise
      (fun c c' => c.now ≤ c'.now) ∧
    let s := creationsAfter 72
      [noonCall .typed 200000 "r1" "m1", noonCall .service 700000 "r2" "m2"]
    (s.unexpired "u" "c" minuteLater).getLast?.map (fun set => set.messageIds) =
        some [text "m2"] ∧
      (latestReferenceSet s.db "u" "c" (Writer.service.stamp minuteLater)).map
        ReferenceSet.orderedMessageIds = some [text "m1"] := by
  decide +kernel

end Reading

end HardyAI.Email
