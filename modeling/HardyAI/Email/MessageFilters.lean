import HardyAI.Email.MessageQueries

/-! The messages that a typed query asks for, and the ones that `query_messages` returns. -/

open Foundation Foundation.Json

namespace HardyAI.Email

section Purpose

/-- What a list with a visibility shows of the messages of a user. -/
def Shows (v : Visibility) (now : Str) (us : Option UserState) (category : Option Str) : Prop :=
  match v with
  | .active => us = none ∨ ∃ r, us = some r ∧ (r.disposition = some (text "needs_reply") ∨
      r.reviewState ∈ [.new, .presented] ∨
      r.reviewState = .snoozed ∧ ∃ t, r.snoozedUntil = some t ∧ t ≤ now)
  | .unseen => us = none
  | .needsReply => ∃ r, us = some r ∧ r.disposition = some (text "needs_reply")
  | .completed => ∃ r, us = some r ∧ (r.disposition = some (text "complete") ∨
      r.disposition = none ∧ r.reviewState = .reviewed)
  | .spam => (∃ r, us = some r ∧ r.disposition = some (text "spam")) ∨ category = some (text "spam")
  | .all => True

theorem visible_iff_shows {v : Visibility} {now : Str} {us : Option UserState}
    {category : Option Str} : Visible v now us category ↔ Shows v now us category := by
  cases v with
  | active => exact visible_active
  | unseen => simp [Visible, visibilityClause, Shows]
  | needsReply => cases us <;> simp [Visible, visibilityClause, Shows, Option.any_eq_true]
  | completed =>
    cases us with
    | none => simp [Visible, visibilityClause, Shows]
    | some r =>
      cases hdisposition : r.disposition <;>
        simp [Visible, visibilityClause, Shows, hdisposition]
  | spam => cases us <;> simp [Visible, visibilityClause, Shows, Option.any_eq_true]
  | all => simp [Visible, visibilityClause, Shows, Sql.holds]

/-- A filter of a query on the texts of a message. -/
inductive TextFilter
  | senderAddresses (addresses : List Str)
  | senderDomains (domains : List Str)
  | senderText (t : Str)
  | recipientAddresses (addresses : List Str)
  | term (t : Str)

/-- The filter is met by a message, where `fold` takes the case away from a column and `domain` is
what an address belongs to. -/
def TextFilter.Meets (fold domain : Str → Str) (m : StoredMessage) : TextFilter → Prop
  | .senderAddresses addresses => ∃ s, m.senderEmail = some s ∧ fold s ∈ addresses
  | .senderDomains domains => ∃ s, m.senderEmail = some s ∧ fold (domain s) ∈ domains
  | .senderText t => ∃ s, (m.senderName = some s ∨ m.senderEmail = some s) ∧ t <:+: fold s
  | .recipientAddresses addresses => ∃ s ∈ m.recipientHeaders, fold s ∈ addresses
  | .term t => ∃ s, (m.subject = s ∨ m.senderEmail = some s ∨ m.senderName = some s ∨
      m.snippet = s) ∧ t <:+: fold s

/-- The domain of an address: what stands behind its last `@`. -/
def domainPart (s : Str) : Str := s.rtakeWhile (· ≠ codePoint '@')

/-- What stands behind the first `@`. -/
def behindFirst (s : Str) : Str := Sql.substr s (Sql.instr s (codePoint '@') + 1)

def listFilter (items : List Str) (filter : List Str → TextFilter) : List TextFilter :=
  if items = [] then [] else [filter items]

variable [PythonText]

def EmailQuery.textFilters (q : EmailQuery) : List TextFilter :=
  listFilter q.senderAddresses .senderAddresses ++ listFilter q.senderDomains .senderDomains ++
  (q.senderText.toList.map fun t => .senderText (PythonText.casefold t)) ++
  listFilter q.recipientAddresses .recipientAddresses ++ q.textTerms.map .term

/-- The message carries one, or all, of the labels of the query. -/
def Labelled (db : ProjectionDb) (q : EmailQuery) (m : StoredMessage) : Prop :=
  match q.labelMatch with
  | .any => q.labelRefs = [] ∨ ∃ ref ∈ q.labelRefs, ref ∈ db.labelsOn m
  | .all => ∀ ref ∈ q.labelRefs, ref ∈ db.labelsOn m

/-- The message is in the interval of the query, to the microsecond. -/
def Within (q : EmailQuery) (m : StoredMessage) : Prop :=
  ∀ start end_, q.start = some start → q.end_ = some end_ →
    (start.val : Int) ≤ unixEpoch + 1000 * m.internalDate ∧
      unixEpoch + 1000 * m.internalDate < end_.val

/-- The message meets every filter of the query. -/
structure Satisfies (fold domain : Str → Str) (c : MessageQuery) (scope : QueryScope)
    (db : ProjectionDb) (m : StoredMessage) : Prop where
  source : m.sourceRouteKey ∈ scope.selectedSources
  permitted : ∀ key, db.category c.taxonomyVersion m = some key → key ∈ scope.categoryKeys
  within : Within c.query m
  shown : Shows c.query.visibility c.now (c.userState db m) (db.category c.taxonomyVersion m)
  classified : ∀ key, c.query.classification = some key →
    db.category c.taxonomyVersion m = some key
  labelled : Labelled db c.query m
  attached : ∀ wanted, c.query.hasAttachment = some wanted →
    ∃ j, m.attachmentMetadata = some j ∧ (wanted = true ↔ 0 < jsonArrayLength j)
  texts : ∀ f ∈ c.query.textFilters, f.Meets fold domain m

/-- The message meets a filter of the query only because of a character that is no ASCII letter
and folds, or because of a second `@` in its sender. -/
def OnlyByFolding (q : EmailQuery) (m : StoredMessage) : Prop :=
  ∃ f ∈ q.textFilters, f.Meets PythonText.casefold domainPart m ∧
    ¬f.Meets Sql.lower behindFirst m

end Purpose

section Clauses

variable [PythonText] {q : EmailQuery} {m : StoredMessage} {db : ProjectionDb}

omit [PythonText] in
theorem forall_clauseIf {given : Bool} {clause : Sql.Truth} :
    (∀ t ∈ clauseIf given clause, Sql.holds t = true) ↔ (given = true → Sql.holds clause = true) := by
  cases given <;> simp [clauseIf]

omit [PythonText] in
theorem forall_listFilter {items : List Str} {filter : List Str → TextFilter}
    {p : TextFilter → Prop} :
    (∀ f ∈ listFilter items filter, p f) ↔ (items ≠ [] → p (filter items)) := by
  by_cases h : items = [] <;> simp [listFilter, h]

theorem forall_textFilters {p : TextFilter → Prop} : (∀ f ∈ q.textFilters, p f) ↔
    (q.senderAddresses ≠ [] → p (.senderAddresses q.senderAddresses)) ∧
      (q.senderDomains ≠ [] → p (.senderDomains q.senderDomains)) ∧
      (∀ t, q.senderText = some t → p (.senderText (PythonText.casefold t))) ∧
      (q.recipientAddresses ≠ [] → p (.recipientAddresses q.recipientAddresses)) ∧
      ∀ t ∈ q.textTerms, p (.term t) := by
  simp only [EmailQuery.textFilters, List.mem_append, or_imp, forall_and, forall_listFilter,
    List.mem_map, Option.mem_toList, forall_exists_index, and_imp, forall_apply_eq_imp_iff₂,
    and_assoc]

omit [PythonText] in
theorem holds_columnLike {t : Str} (ht : Sql.lower t = t) {column : Option Str} :
    Sql.holds (columnLike (Sql.containsPattern t) column) = true ↔
      ∃ s, column = some s ∧ t <:+: Sql.lower s := by
  cases column with
  | none => simp [columnLike]
  | some s => simp [columnLike, Sql.like_containsPattern, ht]

/-- The clauses on the texts of a message say that it meets the filters on them, with the case
folding and the domains of SQL. -/
theorem textClauses_iff (hsender : ∀ t, q.senderText = some t →
      Sql.lower (PythonText.casefold t) = PythonText.casefold t)
    (hterms : ∀ t ∈ q.textTerms, Sql.lower t = t) :
    (∀ t ∈ senderClauses q m ++ recipientClauses q m ++ textClauses q m, Sql.holds t = true) ↔
      ∀ f ∈ q.textFilters, f.Meets Sql.lower behindFirst m := by
  have haddresses : Sql.holds (Sql.compare m.senderEmail fun s =>
      q.senderAddresses.contains (Sql.lower s)) = true ↔
      TextFilter.Meets Sql.lower behindFirst m (.senderAddresses q.senderAddresses) := by
    simp [TextFilter.Meets, Option.any_eq_true]
  have hdomains : Sql.holds (Sql.compare m.senderEmail fun s =>
      q.senderDomains.contains (Sql.lower (Sql.substr s (Sql.instr s (codePoint '@') + 1)))) =
        true ↔ TextFilter.Meets Sql.lower behindFirst m (.senderDomains q.senderDomains) := by
    simp [TextFilter.Meets, Option.any_eq_true, behindFirst]
  have htext : ∀ t, q.senderText = some t →
      (Sql.holds (Sql.disj
          (columnLike (Sql.containsPattern (PythonText.casefold t)) m.senderName)
          (columnLike (Sql.containsPattern (PythonText.casefold t)) m.senderEmail)) = true ↔
        TextFilter.Meets Sql.lower behindFirst m (.senderText (PythonText.casefold t))) := by
    intro t ht
    rw [Sql.holds_disj, Bool.or_eq_true, holds_columnLike (hsender t ht),
      holds_columnLike (hsender t ht), ← exists_or]
    simp only [TextFilter.Meets, or_and_right]
  have hrecipients : Sql.holds (some (m.recipientHeaders.any fun r =>
      q.recipientAddresses.contains (Sql.lower r))) = true ↔
      TextFilter.Meets Sql.lower behindFirst m (.recipientAddresses q.recipientAddresses) := by
    simp [TextFilter.Meets, Sql.holds]
  have hterm : ∀ t ∈ q.textTerms,
      (Sql.holds (Sql.disj (Sql.disj (Sql.disj
          (columnLike (Sql.containsPattern t) (some m.subject))
          (columnLike (Sql.containsPattern t) m.senderEmail))
          (columnLike (Sql.containsPattern t) m.senderName))
          (columnLike (Sql.containsPattern t) (some m.snippet))) = true ↔
        TextFilter.Meets Sql.lower behindFirst m (.term t)) := by
    intro t ht
    simp only [Sql.holds_disj, Bool.or_eq_true, holds_columnLike (hterms t ht), ← exists_or,
      TextFilter.Meets, Option.some.injEq, or_and_right, or_assoc]
  rw [forall_textFilters, ← haddresses, ← hdomains, ← hrecipients]
  simp only [senderClauses, recipientClauses, textClauses, List.mem_append, or_imp, forall_and,
    forall_clauseIf, List.mem_map, Option.mem_toList, forall_exists_index, and_imp,
    forall_apply_eq_imp_iff₂, Bool.not_eq_true', List.isEmpty_eq_false_iff, and_assoc]
  refine and_congr_right fun _ => and_congr_right fun _ => ?_
  exact and_congr (forall₂_congr htext) (and_congr_right fun _ => forall₂_congr hterm)

omit [PythonText] in
theorem internalDateOf_floor {t : Instant} (ht : t.floor = t) :
    1000 * internalDateOf t = (t.val : Int) - unixEpoch := by
  have hmod : t.val % 1000000 = 0 := by
    rw [← ht]
    exact floor_mod t
  have hdvd : (1000 : Int) ∣ (t.val : Int) - unixEpoch := by
    unfold unixEpoch
    omega
  rw [internalDateOf, Int.tdiv_eq_ediv_of_dvd hdvd, Int.mul_ediv_cancel' hdvd]

omit [PythonText] in
theorem intervalClauses_iff (hstart : ∀ t ∈ q.start, t.floor = t) (hend : ∀ t ∈ q.end_, t.floor = t) :
    (∀ t ∈ intervalClauses q m, Sql.holds t = true) ↔ Within q m := by
  unfold intervalClauses Within
  split
  · next start end_ hs he =>
    have hfirst := internalDateOf_floor (hstart start hs)
    have hlast := internalDateOf_floor (hend end_ he)
    simp only [List.mem_cons, List.not_mem_nil, or_false, forall_eq_or_imp, forall_eq, Sql.holds,
      Option.some.injEq, decide_eq_true_eq, hs, he]
    constructor
    · rintro ⟨hafter, hbefore⟩ _ _ rfl rfl
      omega
    · intro h
      have hboth := h start end_ rfl rfl
      omega
  · next hnone =>
    refine iff_of_true (fun t ht => absurd ht List.not_mem_nil) ?_
    intro start end_ hs he
    exact absurd he (hnone start end_ hs)

omit [PythonText] in
/-- As many different references are found as the query names exactly where all of them are. -/
theorem dedup_length_eq_iff {refs found : List Str} (hdistinct : refs.Nodup) :
    (found.filter (refs.contains ·)).dedup.length = refs.length ↔ ∀ ref ∈ refs, ref ∈ found := by
  have hsub : (found.filter (refs.contains ·)).dedup ⊆ refs := by
    intro ref href
    simpa using (List.mem_filter.1 (List.mem_dedup.1 href)).2
  constructor
  · intro hlength ref href
    have hperm := (List.subperm_of_subset (List.nodup_dedup _) hsub).perm_of_length_le hlength.ge
    exact (List.mem_filter.1 (List.mem_dedup.1 (hperm.mem_iff.2 href))).1
  · intro hall
    have hperm : (found.filter (refs.contains ·)).dedup.Perm refs := by
      rw [List.perm_ext_iff_of_nodup (List.nodup_dedup _) hdistinct]
      intro ref
      refine ⟨fun href => hsub href, fun href => ?_⟩
      rw [List.mem_dedup, List.mem_filter]
      exact ⟨hall ref href, by simpa using href⟩
    exact hperm.length_eq

omit [PythonText] in
theorem labelClauses_iff {c : MessageQuery} (hrefs : c.selectedLabelRefs = c.query.labelRefs)
    (hdistinct : c.query.labelRefs.Nodup) :
    (∀ t ∈ c.labelClauses db m, Sql.holds t = true) ↔ Labelled db c.query m := by
  unfold MessageQuery.labelClauses Labelled
  rw [forall_clauseIf, hrefs]
  cases c.query.labelMatch with
  | any =>
    by_cases hempty : c.query.labelRefs = []
    · simp [hempty]
    · simp [hempty, Sql.holds, and_comm]
  | all =>
    by_cases hempty : c.query.labelRefs = []
    · simp [hempty]
    · simp only [Sql.holds, Option.some.injEq, decide_eq_true_eq, dedup_length_eq_iff hdistinct]
      simp [hempty]

omit [PythonText] in
theorem attachmentClauses_iff : (∀ t ∈ attachmentClauses q m, Sql.holds t = true) ↔
    ∀ wanted, q.hasAttachment = some wanted →
      ∃ j, m.attachmentMetadata = some j ∧ (wanted = true ↔ 0 < jsonArrayLength j) := by
  unfold attachmentClauses
  cases q.hasAttachment with
  | none => simp
  | some wanted =>
    cases m.attachmentMetadata with
    | none => simp
    | some j => cases wanted <;> simp

end Clauses

section Acceptance

variable [PythonText] {q : EmailQuery} {m : StoredMessage}

omit [PythonText] in
theorem nodup_of_distinctItems {item : Json → Except PyError Str} {key : Str → Str}
    {duplicate : PyError} {raws : List Json} : ∀ {seen xs},
    distinctItems item key duplicate seen raws = .ok xs →
      (xs.map key).Nodup ∧ ∀ x ∈ xs, key x ∉ seen := by
  induction raws with
  | nil =>
    intro seen xs h
    obtain rfl := Except.ok.inj h
    exact ⟨List.nodup_nil, fun x hx => absurd hx List.not_mem_nil⟩
  | cons raw rest ih =>
    intro seen xs h
    obtain ⟨value, -, h⟩ := bind_eq_ok.1 h
    obtain ⟨u, hfresh, h⟩ := bind_eq_ok.1 h
    obtain ⟨values, hvalues, h⟩ := bind_eq_ok.1 h
    obtain rfl := Except.ok.inj h
    obtain ⟨hnodup, hother⟩ := ih hvalues
    have hnew : key value ∉ seen := by simpa using require_eq_ok.1 hfresh
    refine ⟨?_, fun x hx => ?_⟩
    · rw [List.map_cons, List.nodup_cons]
      refine ⟨fun hkey => ?_, hnodup⟩
      obtain ⟨x, hx, hsame⟩ := List.mem_map.1 hkey
      exact hother x hx (hsame ▸ List.mem_cons_self)
    · rcases List.mem_cons.1 hx with rfl | hx
      · exact hnew
      · exact fun hseen => hother x hx (List.mem_cons_of_mem _ hseen)

omit [PythonText] in
theorem listArgument_read {value : Option Json} {maximum : Nat} {invalid : PyError}
    {read : List Json → Except PyError (List Str)} {xs : List Str}
    (h : listArgument value maximum invalid read = .ok xs) :
    xs = [] ∨ ∃ raws, read raws = .ok xs := by
  unfold listArgument at h
  split at h
  · exact .inl (Except.ok.inj h).symm
  · exact .inl (Except.ok.inj h).symm
  · split at h
    · exact .inr ⟨_, h⟩
    · cases h
  · cases h

theorem boundedValues_nodup {value : Option Json} {field : String} {maximumChars : Nat}
    {xs : List Str} (h : boundedValues value field maximumChars = .ok xs) : xs.Nodup := by
  rcases listArgument_read h with rfl | ⟨raws, hread⟩
  · exact List.nodup_nil
  · exact (nodup_of_distinctItems hread).1.of_map _

variable (laws : FoldLaws)
include laws

theorem boundedEmails_fixed {value : Option Json} {field : String} {xs : List Str}
    (h : boundedEmails value field = .ok xs) : ∀ x ∈ xs, Fixed x := by
  rcases listArgument_read h with rfl | ⟨raws, hread⟩
  · exact fun x hx => absurd hx List.not_mem_nil
  · intro x hx
    obtain ⟨raw, -, hitem⟩ := mem_of_distinctItems hread x hx
    obtain ⟨t, -, hitem⟩ := bind_eq_ok.1 hitem
    obtain ⟨-, -, hitem⟩ := bind_eq_ok.1 hitem
    obtain rfl := Except.ok.inj hitem
    exact fixed_casefold laws _

theorem boundedDomains_domain {value : Option Json} {xs : List Str}
    (h : boundedDomains value = .ok xs) : ∀ x ∈ xs, Domain x := by
  obtain ⟨raws, -, h⟩ := bind_eq_ok.1 h
  intro x hx
  obtain ⟨raw, -, hx⟩ := mem_of_mapM h x hx
  exact domain_of_domainItem laws hx

/-- What the filters of an accepted query look for is folded, and its domains are bare. -/
structure FoldedNeedles (q : EmailQuery) : Prop where
  senderAddresses : ∀ x ∈ q.senderAddresses, Fixed x
  senderDomains : ∀ x ∈ q.senderDomains, Domain x
  recipientAddresses : ∀ x ∈ q.recipientAddresses, Fixed x

theorem foldedNeedles {zones : Str → Bool} {f : QueryFields} (h : Constructed zones f q) :
    FoldedNeedles q where
  senderAddresses := boundedEmails_fixed laws h.senderAddresses
  senderDomains := boundedDomains_domain laws h.senderDomains
  recipientAddresses := boundedEmails_fixed laws h.recipientAddresses

theorem fixed_textTerms : ∀ t ∈ q.textTerms, Fixed t := by
  intro t ht
  have hmem := List.mem_of_mem_take ht
  rw [List.mem_eraseDups, List.mem_map] at hmem
  obtain ⟨word, -, rfl⟩ := hmem
  exact fixed_casefold laws word

end Acceptance

section Domains

/-- Behind the only `@` stands the domain. -/
theorem domainPart_of_bare {s : Str} (h : codePoint '@' ∉ behindFirst s) :
    domainPart s = behindFirst s := by
  rw [behindFirst, Sql.substr_instr] at h ⊢
  by_cases hsign : codePoint '@' ∈ s
  · rw [if_pos hsign] at h ⊢
    have hsplit : s.takeWhile (· ≠ codePoint '@') ++
        codePoint '@' :: (s.dropWhile (· ≠ codePoint '@')).tail = s := by
      have hne : s.dropWhile (· ≠ codePoint '@') ≠ [] := by
        rw [ne_eq, List.dropWhile_eq_nil_iff]
        exact fun hall => by simpa using hall _ hsign
      have hhead : (s.dropWhile (· ≠ codePoint '@')).head hne = codePoint '@' := by
        simpa using List.head_dropWhile_not (· ≠ codePoint '@') hne
      have hcons := List.cons_head_tail hne
      rw [hhead] at hcons
      rw [hcons, List.takeWhile_append_dropWhile]
    generalize (s.dropWhile (· ≠ codePoint '@')).tail = domain at h hsplit ⊢
    rw [domainPart, ← hsplit, List.rtakeWhile, List.reverse_append, List.reverse_cons,
      List.append_assoc, List.takeWhile_append_of_pos]
    · simp
    · intro c hc
      rw [decide_eq_true_iff]
      rintro rfl
      exact h (List.mem_reverse.1 hc)
  · rw [if_neg hsign, domainPart, List.rtakeWhile_eq_self_iff]
    intro c hc
    rw [decide_eq_true_iff]
    rintro rfl
    exact hsign hc

theorem mem_lower_sign {s : Str} (h : codePoint '@' ∈ s) : codePoint '@' ∈ Sql.lower s :=
  List.mem_map.2 ⟨_, h, rfl⟩

end Domains

section Soundness

variable [PythonText] {q : EmailQuery} {m : StoredMessage} (laws : FoldLaws)
include laws

/-- What the clauses find of an accepted query's filters, case folding finds. -/
theorem meets_of_clauses (hq : FoldedNeedles q) : ∀ f ∈ q.textFilters,
    f.Meets Sql.lower behindFirst m → f.Meets PythonText.casefold domainPart m := by
  rw [forall_textFilters]
  refine ⟨fun _ => ?_, fun _ => ?_, fun t _ => ?_, fun _ => ?_, fun t ht => ?_⟩
  · rintro ⟨s, hs, hmem⟩
    refine ⟨s, hs, ?_⟩
    rwa [Sql.casefold_of_lower laws (hq.senderAddresses _ hmem) rfl]
  · rintro ⟨s, hs, hmem⟩
    have hdomain := hq.senderDomains _ hmem
    have hbare : codePoint '@' ∉ behindFirst s := fun h => hdomain.bare (mem_lower_sign h)
    refine ⟨s, hs, ?_⟩
    rwa [domainPart_of_bare hbare, Sql.casefold_of_lower laws hdomain.fixed rfl]
  · rintro ⟨s, hs, hinfix⟩
    have hfixed : Fixed (PythonText.casefold t) := fixed_casefold laws t
    rw [← Sql.lower_of_fixed hfixed] at hinfix
    exact ⟨s, hs, Sql.infix_casefold laws hfixed hinfix⟩
  · rintro ⟨s, hs, hmem⟩
    refine ⟨s, hs, ?_⟩
    rwa [Sql.casefold_of_lower laws (hq.recipientAddresses _ hmem) rfl]
  · rintro ⟨s, hs, hinfix⟩
    have hfixed : Fixed t := fixed_textTerms laws t ht
    rw [← Sql.lower_of_fixed hfixed] at hinfix
    exact ⟨s, hs, Sql.infix_casefold laws hfixed hinfix⟩

end Soundness

section Returned

variable [PythonText] {c : MessageQuery} {scope : QueryScope} {db : ProjectionDb} {m : StoredMessage}

/-- The clauses hold of a message exactly where it satisfies the query as SQL folds and cuts. -/
theorem matches_iff (laws : FoldLaws) {zones : Str → Bool} {f : QueryFields}
    (hq : Constructed zones f c.query) (hcursor : c.query.cursorInternalDate = none)
    (hrefs : c.selectedLabelRefs = c.query.labelRefs) :
    c.matches scope db m = true ↔ Satisfies Sql.lower behindFirst c scope db m := by
  have hstart : ∀ t ∈ c.query.start, t.floor = t := by
    rw [hq.start]
    rintro t ht
    obtain ⟨s, -, rfl⟩ := Option.mem_map.1 ht
    exact floor_floor s
  have hend : ∀ t ∈ c.query.end_, t.floor = t := by
    rw [hq.end_]
    rintro t ht
    obtain ⟨s, -, rfl⟩ := Option.mem_map.1 ht
    exact floor_floor s
  have hpermitted : ∀ category : Option Str,
      Sql.holds (Sql.disj (Sql.isNull category) (Sql.compare category (scope.categoryKeys.contains ·)))
        = true ↔ ∀ key, category = some key → key ∈ scope.categoryKeys := by
    intro category
    cases category <;> simp
  have hclassified : (∀ t ∈ c.query.classification.toList.map fun key =>
      Sql.compare (db.category c.taxonomyVersion m) (· = key), Sql.holds t = true) ↔
        ∀ key, c.query.classification = some key → db.category c.taxonomyVersion m = some key := by
    simp [Option.any_eq_true]
  have hcursorClauses : cursorClauses c.query m = [] := by
    unfold cursorClauses
    rw [hcursor]
  have htexts := textClauses_iff (m := m) (fun t _ => Sql.lower_of_fixed (fixed_casefold laws t))
    (fun t ht => Sql.lower_of_fixed (fixed_textTerms laws (q := c.query) t ht))
  have hlabels : (∀ t ∈ c.labelClauses db m, Sql.holds t = true) ↔ Labelled db c.query m :=
    labelClauses_iff hrefs (boundedValues_nodup hq.labelRefs)
  rw [MessageQuery.matches, Sql.holds_foldr_conj, List.all_eq_true, MessageQuery.clauses,
    hcursorClauses]
  simp only [List.mem_append, or_imp, forall_and, List.append_nil] at htexts ⊢
  rw [intervalClauses_iff hstart hend, hclassified, hlabels, attachmentClauses_iff]
  have hhead : (∀ t ∈ [some (scope.selectedSources.contains m.sourceRouteKey),
      Sql.disj (Sql.isNull (db.category c.taxonomyVersion m))
        (Sql.compare (db.category c.taxonomyVersion m) (scope.categoryKeys.contains ·))],
      Sql.holds t = true) ↔ m.sourceRouteKey ∈ scope.selectedSources ∧
        ∀ key, db.category c.taxonomyVersion m = some key → key ∈ scope.categoryKeys := by
    simp only [List.mem_cons, List.not_mem_nil, or_false, forall_eq_or_imp, forall_eq, hpermitted]
    simp [Sql.holds]
  have hshows : (∀ t ∈ [visibilityClause c.query.visibility c.now (c.userState db m)
      (db.category c.taxonomyVersion m)], Sql.holds t = true) ↔ Shows c.query.visibility c.now
        (c.userState db m) (db.category c.taxonomyVersion m) := by
    rw [List.forall_mem_singleton]
    exact visible_iff_shows
  rw [hhead, hshows]
  constructor
  · rintro ⟨⟨⟨⟨⟨⟨⟨⟨hscope, hwithin⟩, hshown⟩, hclass⟩, hsender⟩, hrecipient⟩, hlabel⟩, hterms⟩, hattached⟩
    exact ⟨hscope.1, hscope.2, hwithin, hshown, hclass, hlabel, hattached,
      htexts.1 ⟨⟨hsender, hrecipient⟩, hterms⟩⟩
  · intro h
    obtain ⟨⟨hsender, hrecipient⟩, hterms⟩ := htexts.2 h.texts
    exact ⟨⟨⟨⟨⟨⟨⟨⟨⟨h.source, h.permitted⟩, h.within⟩, h.shown⟩, h.classified⟩, hsender⟩, hrecipient⟩,
      h.labelled⟩, hterms⟩, h.attached⟩

theorem satisfies_iff (laws : FoldLaws) {zones : Str → Bool} {f : QueryFields}
    (hq : Constructed zones f c.query) :
    Satisfies Sql.lower behindFirst c scope db m ↔
      Satisfies PythonText.casefold domainPart c scope db m ∧ ¬OnlyByFolding c.query m := by
  have hsound := meets_of_clauses (m := m) laws (foldedNeedles laws hq)
  constructor
  · intro h
    refine ⟨{ h with texts := fun g hg => hsound g hg (h.texts g hg) }, ?_⟩
    rintro ⟨g, hg, -, hnot⟩
    exact hnot (h.texts g hg)
  · rintro ⟨h, honly⟩
    refine { h with texts := fun g hg => ?_ }
    by_contra hnot
    exact honly ⟨g, hg, h.texts g hg, hnot⟩

/-- A page that has room for every match shows them all. -/
theorem mem_page_iff (hscope : c.scope = .ok scope)
    (hroom : (c.matching scope db).length ≤ c.pageSize) :
    (∃ rows, queryMessages db c = .ok rows ∧ ∃ row ∈ rows, row.message = m) ↔
      m ∈ db.messages.rows ∧ c.matches scope db m = true := by
  have hpage : queryMessages db c = .ok (((c.matching scope db).insertionSort
      c.query.order.before).map (db.row c.taxonomyVersion)) := by
    have hlength := (List.perm_insertionSort c.query.order.before (c.matching scope db)).length_eq
    refine bind_eq_ok.2 ⟨scope, hscope, ?_⟩
    rw [List.take_of_length_le (hlength.trans_le hroom)]
  rw [← List.mem_filter, hpage]
  simp only [Except.ok.injEq, exists_eq_left', List.mem_map, exists_exists_and_eq_and,
    List.mem_insertionSort]
  constructor
  · rintro ⟨m', hm, rfl⟩
    exact hm
  · exact fun hm => ⟨m, hm, rfl⟩

/-- A page with room for every match shows exactly the messages that satisfy the query, unless one
of them does so only because of a character that SQL does not fold. -/
theorem returned_iff_satisfies (laws : FoldLaws) {zones : Str → Bool} {f : QueryFields}
    (hq : postInit zones f = .ok c.query) (hcursor : c.query.cursorInternalDate = none)
    (hrefs : c.selectedLabelRefs = c.query.labelRefs) (hscope : c.scope = .ok scope)
    (hroom : (c.matching scope db).length ≤ c.pageSize) (hm : m ∈ db.messages.rows) :
    ((∃ rows, queryMessages db c = .ok rows ∧ ∃ row ∈ rows, row.message = m) ↔
        Satisfies PythonText.casefold domainPart c scope db m) ↔
      (Satisfies PythonText.casefold domainPart c scope db m → ¬OnlyByFolding c.query m) := by
  have hq' := postInit_eq_ok.1 hq
  rw [mem_page_iff hscope hroom, matches_iff laws hq' hcursor hrefs, satisfies_iff laws hq',
    and_iff_right hm, and_iff_left_iff_imp]

end Returned

section Samples

/-- Latin-1 capitals fold as those of ASCII do. -/
def latinFold (c : CodePoint) : CodePoint :=
  if h : 0xC0 ≤ c.val ∧ c.val ≤ 0xDE ∧ c.val ≠ 0xD7 then ⟨c.val + 32, by omega⟩ else asciiLower c

@[reducible] def latinText : PythonText :=
  { asciiText with
    casefold := fun s => s.map latinFold
    casefold_ascii := fun s hs => List.map_congr_left fun c hc => by
      have hlt : c.val < 128 := by simpa using List.all_eq_true.1 hs c hc
      exact dif_neg (by omega) }

theorem latinFold_val (c : CodePoint) : (latinFold c).val = c.val ∧
      ¬(65 ≤ c.val ∧ c.val ≤ 90) ∧ ¬(0xC0 ≤ c.val ∧ c.val ≤ 0xDE ∧ c.val ≠ 0xD7) ∨
    (latinFold c).val = c.val + 32 ∧
      (65 ≤ c.val ∧ c.val ≤ 90 ∨ 0xC0 ≤ c.val ∧ c.val ≤ 0xDE ∧ c.val ≠ 0xD7) := by
  unfold latinFold asciiLower
  split_ifs with h h'
  · exact .inr ⟨rfl, .inr h⟩
  · exact .inr ⟨rfl, .inl h'⟩
  · exact .inl ⟨rfl, h', h⟩

theorem foldLaws_latinText : @FoldLaws latinText := by
  refine @FoldLaws.mk latinText (fun _ _ => List.map_append) (fun c d hd => ?_) (fun c hc => ?_)
  · obtain rfl : d = latinFold c := by simpa [PythonText.casefold] using hd
    have hagain : latinFold (latinFold c) = latinFold c := by
      have hfirst := latinFold_val c
      have hsecond := latinFold_val (latinFold c)
      apply Fin.ext
      omega
    simpa [PythonText.casefold] using hagain
  · refine ⟨by simp [PythonText.casefold], fun d hd => ?_⟩
    obtain rfl : d = latinFold c := by simpa [PythonText.casefold] using hd
    rcases latinFold_val c with ⟨hsame, -, -⟩ | ⟨hmoved, hcapital⟩
    · rwa [Fin.ext hsame]
    · simp only [isSpace, hmoved]
      simp
      omega

/-- The query for the word école. -/
def schoolFields : QueryFields where
  start := none
  end_ := none
  timezoneName := "UTC"
  mailboxRefs := []
  senderAddresses := []
  senderDomains := []
  senderText := none
  recipientAddresses := []
  labelRefs := []
  labelMatch := "any"
  classification := none
  visibility := "all"
  text := some [0xE9, 0x63, 0x6F, 0x6C, 0x65]
  hasAttachment := none
  order := "newest"
  limit := some (.int 25)

def schoolQuery : EmailQuery where
  start := none
  end_ := none
  timezoneName := "UTC"
  mailboxRefs := []
  senderAddresses := []
  senderDomains := []
  senderText := none
  recipientAddresses := []
  labelRefs := []
  labelMatch := .any
  classification := none
  visibility := .all
  text := some [0xE9, 0x63, 0x6F, 0x6C, 0x65]
  hasAttachment := none
  order := .newest
  limit := 25
  cursorInternalDate := none
  cursorMessageId := none

def schoolCall : MessageQuery where
  query := schoolQuery
  taxonomyVersion := "v1"
  userId := "owner"
  discordChannelId := "mail"
  allowedSourceKeys := ["inbox"]
  allowedCategoryKeys := ["school"]
  selectedSourceKeys := none
  selectedLabelRefs := []
  now := []

def schoolScope : QueryScope := ⟨["school"], ["inbox"]⟩

/-- A message whose subject is written in capitals. -/
def schoolMessage : StoredMessage where
  gmailMessageId := "message-1"
  gmailThreadId := "thread-1"
  sourceRouteKey := "inbox"
  internalDate := 0
  senderName := none
  senderEmail := none
  recipientHeaders := []
  subject := [0xC9, 0x43, 0x4F, 0x4C, 0x45]
  snippet := []
  attachmentMetadata := none
  canonicalBodyHash := []

def schoolDb : ProjectionDb where
  messages := ⟨[schoolMessage], by simp⟩
  classifications := .empty
  userStates := .empty
  summaries := .empty
  messageLabels := .empty
  managedLabels := .empty

/-- The query is accepted, its words occur in the folded subject, and its clauses refuse the
message. -/
theorem schoolCall_checked :
    @postInit latinText (fun _ => true) schoolFields = .ok schoolQuery ∧
      @MessageQuery.matches latinText schoolCall schoolScope schoolDb schoolMessage = false ∧
      @EmailQuery.textTerms latinText schoolQuery = [[0xE9, 0x63, 0x6F, 0x6C, 0x65]] ∧
      schoolMessage.sourceRouteKey ∈ schoolScope.selectedSources ∧
      ([0xE9, 0x63, 0x6F, 0x6C, 0x65] : Str) <:+:
        @PythonText.casefold latinText schoolMessage.subject := by
  decide +kernel

theorem schoolCall_scope : @MessageQuery.scope latinText schoolCall = .ok schoolScope := by
  rfl

theorem schoolQuery_textFilters : @EmailQuery.textFilters latinText schoolQuery =
    [.term [0xE9, 0x63, 0x6F, 0x6C, 0x65]] := by
  obtain ⟨-, -, hterms, -⟩ := schoolCall_checked
  simp only [EmailQuery.textFilters, hterms]
  rfl

theorem schoolMessage_satisfies : @Satisfies latinText (@PythonText.casefold latinText) domainPart
    schoolCall schoolScope schoolDb schoolMessage := by
  obtain ⟨-, -, -, hsource, hinfix⟩ := schoolCall_checked
  refine @Satisfies.mk latinText _ _ _ _ _ _ hsource (fun key hkey => ?_)
    (fun start end_ hstart => ?_) trivial (fun key hkey => ?_) (.inl rfl) (fun wanted hwanted => ?_)
    (fun f hf => ?_)
  · cases hkey
  · cases hstart
  · cases hkey
  · cases hwanted
  · have hquery : schoolCall.query = schoolQuery := rfl
    rw [hquery, schoolQuery_textFilters, List.mem_singleton] at hf
    rw [hf]
    exact ⟨schoolMessage.subject, .inl rfl, hinfix⟩

theorem schoolCall_room :
    (@MessageQuery.matching latinText schoolCall schoolScope schoolDb).length ≤
      schoolCall.pageSize := by
  have hrows : (@MessageQuery.matching latinText schoolCall schoolScope schoolDb).length ≤ 1 :=
    List.length_filter_le _ _
  exact hrows.trans (by decide)

/-- The message satisfies the query and is not returned. -/
theorem capital_not_returned :
    @postInit latinText (fun _ => true) schoolFields = .ok schoolCall.query ∧
      (@MessageQuery.matching latinText schoolCall schoolScope schoolDb).length ≤
        schoolCall.pageSize ∧
      schoolMessage ∈ schoolDb.messages.rows ∧
      @Satisfies latinText (@PythonText.casefold latinText) domainPart schoolCall schoolScope
        schoolDb schoolMessage ∧
      ¬∃ rows, @queryMessages latinText schoolDb schoolCall = .ok rows ∧
        ∃ row ∈ rows, row.message = schoolMessage := by
  obtain ⟨haccepted, hrefused, -⟩ := schoolCall_checked
  refine ⟨haccepted, schoolCall_room, List.mem_singleton_self _, schoolMessage_satisfies,
    fun hreturned => ?_⟩
  have hmatches := ((@mem_page_iff latinText _ _ _ _ schoolCall_scope schoolCall_room).1 hreturned).2
  rw [hrefused] at hmatches
  cases hmatches

theorem returned_iff_satisfies_school :
    ((∃ rows, @queryMessages latinText schoolDb schoolCall = .ok rows ∧
        ∃ row ∈ rows, row.message = schoolMessage) ↔
      @Satisfies latinText (@PythonText.casefold latinText) domainPart schoolCall schoolScope
        schoolDb schoolMessage) ↔
      (@Satisfies latinText (@PythonText.casefold latinText) domainPart schoolCall schoolScope
        schoolDb schoolMessage → ¬@OnlyByFolding latinText schoolCall.query schoolMessage) :=
  @returned_iff_satisfies latinText schoolCall schoolScope schoolDb schoolMessage
    foldLaws_latinText _ _ schoolCall_checked.1 rfl rfl schoolCall_scope schoolCall_room
    (List.mem_singleton_self _)

end Samples

end HardyAI.Email
