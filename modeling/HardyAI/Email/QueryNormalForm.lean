import HardyAI.Email.Query
import HardyAI.Skills.ArgumentNormalForm

/-! A query that was accepted is written as arguments that are accepted as the same query. -/

open Foundation Foundation.Json HardyAI.Skills

namespace HardyAI.Email

section Items

variable [PythonText]

theorem rawText_str (s : Str) : rawText (some (.str s)) = .ok s := by
  by_cases hs : s = []
  · subst hs
    rfl
  · simp [rawText, textOr, truthy, hs, pyStr]

/-- An item that is read from its own normal form is read as it is. -/
def Settled (item : Json → Except PyError Str) : Prop :=
  ∀ raw s, item raw = .ok s → item (.str s) = .ok s

variable {item : Json → Except PyError Str} {key : Str → Str} {duplicate : PyError}

omit [PythonText] in
theorem distinctItems_settled (hitem : Settled item) {raws : List Json} :
    ∀ {seen xs}, distinctItems item key duplicate seen raws = .ok xs →
      distinctItems item key duplicate seen (xs.map Json.str) = .ok xs := by
  induction raws with
  | nil =>
    intro seen xs h
    obtain rfl := Except.ok.inj h
    rfl
  | cons raw rest ih =>
    intro seen xs h
    obtain ⟨value, hvalue, h⟩ := bind_eq_ok.1 h
    obtain ⟨u, hfresh, h⟩ := bind_eq_ok.1 h
    obtain ⟨values, hvalues, h⟩ := bind_eq_ok.1 h
    obtain rfl := Except.ok.inj h
    exact bind_eq_ok.2 ⟨value, hitem raw value hvalue, bind_eq_ok.2 ⟨u, hfresh,
      bind_eq_ok.2 ⟨values, ih hvalues, rfl⟩⟩⟩

omit [PythonText] in
theorem distinctItems_length {raws : List Json} :
    ∀ {seen xs}, distinctItems item key duplicate seen raws = .ok xs →
      xs.length = raws.length := by
  induction raws with
  | nil =>
    intro seen xs h
    obtain rfl := Except.ok.inj h
    rfl
  | cons raw rest ih =>
    intro seen xs h
    obtain ⟨value, -, h⟩ := bind_eq_ok.1 h
    obtain ⟨-, -, h⟩ := bind_eq_ok.1 h
    obtain ⟨values, hvalues, h⟩ := bind_eq_ok.1 h
    obtain rfl := Except.ok.inj h
    rw [List.length_cons, List.length_cons, ih hvalues]

omit [PythonText] in
theorem listArgument_listValue {xs : List Str} {maximum : Nat} {invalid : PyError}
    {read : List Json → Except PyError (List Str)} (hlength : xs.length ≤ maximum)
    (hread : read (xs.map Json.str) = .ok xs) :
    listArgument (listValue xs) maximum invalid read = .ok xs := by
  have hle : (xs.map Json.str).length ≤ maximum := by rwa [List.length_map]
  rw [listValue, listArgument, if_pos hle, hread]

omit [PythonText] in
/-- A list of settled items is read again as it is. -/
theorem listArgument_settled (hitem : Settled item) {value : Option Json} {maximum : Nat}
    {invalid : PyError} {xs : List Str}
    (h : listArgument value maximum invalid (distinctItems item key duplicate []) = .ok xs) :
    listArgument (listValue xs) maximum invalid (distinctItems item key duplicate []) = .ok xs := by
  unfold listArgument at h
  split at h
  · obtain rfl := Except.ok.inj h
    exact listArgument_listValue (Nat.zero_le _) rfl
  · obtain rfl := Except.ok.inj h
    exact listArgument_listValue (Nat.zero_le _) rfl
  · split at h
    · next hle =>
      refine listArgument_listValue ?_ (distinctItems_settled hitem h)
      rwa [distinctItems_length h]
    · cases h
  · cases h

theorem valueItem_settled (field : String) (maximumChars : Nat) :
    Settled (valueItem field maximumChars) := by
  intro raw s h
  obtain ⟨t, -, h⟩ := bind_eq_ok.1 h
  obtain ⟨u, hvalid, h⟩ := bind_eq_ok.1 h
  obtain rfl := Except.ok.inj h
  refine bind_eq_ok.2 ⟨compact t, rawText_str _, bind_eq_ok.2 ⟨u, ?_, ?_⟩⟩
  · rw [compact_compact]
    exact hvalid
  · rw [compact_compact]

theorem emailItem_settled (laws : FoldLaws) (field : String) : Settled (emailItem field) := by
  intro raw s h
  obtain ⟨t, -, h⟩ := bind_eq_ok.1 h
  obtain ⟨u, hvalid, h⟩ := bind_eq_ok.1 h
  obtain rfl := Except.ok.inj h
  have hsame : PythonText.casefold (strip (PythonText.casefold (strip t))) =
      PythonText.casefold (strip t) := by
    rw [strip_casefold laws (strip_strip t), casefold_casefold laws]
  refine bind_eq_ok.2 ⟨_, rawText_str _, bind_eq_ok.2 ⟨u, ?_, ?_⟩⟩
  · rw [hsame]
    exact hvalid
  · rw [hsame]

theorem boundedValues_settled {value : Option Json} {field : String} {maximumChars : Nat}
    {xs : List Str} (h : boundedValues value field maximumChars = .ok xs) :
    boundedValues (listValue xs) field maximumChars = .ok xs :=
  listArgument_settled (valueItem_settled field maximumChars) h

theorem boundedEmails_settled (laws : FoldLaws) {value : Option Json} {field : String}
    {xs : List Str} (h : boundedEmails value field = .ok xs) :
    boundedEmails (listValue xs) field = .ok xs :=
  listArgument_settled (emailItem_settled laws field) h

theorem compactText_settled {value : Option Json} {maximum : Nat} {t : Option Str}
    (h : compactText value maximum = .ok t) : compactText (textValue t) maximum = .ok t := by
  obtain ⟨s, -, h⟩ := bind_eq_ok.1 h
  dsimp only at h
  split at h
  · obtain rfl := Except.ok.inj h
    rfl
  · next hne =>
    obtain ⟨u, hle, h⟩ := bind_eq_ok.1 h
    obtain rfl := Except.ok.inj h
    refine bind_eq_ok.2 ⟨compact s, rawText_str _, ?_⟩
    dsimp only
    rw [compact_compact, if_neg hne]
    exact bind_eq_ok.2 ⟨u, hle, rfl⟩

end Items

section Domains

variable [PythonText]

omit [PythonText] in
theorem mapM_eq_self {α : Type} {g : α → Except PyError α} {xs ys : List α}
    (hself : ∀ x ∈ xs, ∀ y, g x = .ok y → y = x) (h : xs.mapM g = .ok ys) : ys = xs := by
  induction xs generalizing ys with
  | nil => exact (Except.ok.inj h).symm
  | cons x xs ih =>
    rw [List.mapM_cons] at h
    obtain ⟨y, hy, h⟩ := bind_eq_ok.1 h
    obtain ⟨rest, hrest, h⟩ := bind_eq_ok.1 h
    obtain rfl := Except.ok.inj h
    rw [hself x List.mem_cons_self y hy, ih (fun z hz => hself z (List.mem_cons_of_mem x hz)) hrest]

omit [PythonText] in
theorem mem_of_mapM {α β : Type} {g : α → Except PyError β} {xs : List α} {ys : List β}
    (h : xs.mapM g = .ok ys) : ∀ y ∈ ys, ∃ x ∈ xs, g x = .ok y := by
  induction xs generalizing ys with
  | nil =>
    obtain rfl := Except.ok.inj h
    exact fun y hy => absurd hy List.not_mem_nil
  | cons x xs ih =>
    rw [List.mapM_cons] at h
    obtain ⟨y, hy, h⟩ := bind_eq_ok.1 h
    obtain ⟨rest, hrest, h⟩ := bind_eq_ok.1 h
    obtain rfl := Except.ok.inj h
    intro z hz
    rcases List.mem_cons.1 hz with rfl | hz
    · exact ⟨x, List.mem_cons_self, hy⟩
    · obtain ⟨x', hx', hgx'⟩ := ih hrest z hz
      exact ⟨x', List.mem_cons_of_mem x hx', hgx'⟩

omit [PythonText] in
theorem mem_of_distinctItems {item : Json → Except PyError Str} {key : Str → Str}
    {duplicate : PyError} {raws : List Json} : ∀ {seen xs},
    distinctItems item key duplicate seen raws = .ok xs → ∀ x ∈ xs, ∃ raw ∈ raws, item raw = .ok x := by
  induction raws with
  | nil =>
    intro seen xs h
    obtain rfl := Except.ok.inj h
    exact fun x hx => absurd hx List.not_mem_nil
  | cons raw rest ih =>
    intro seen xs h
    obtain ⟨value, hvalue, h⟩ := bind_eq_ok.1 h
    obtain ⟨-, -, h⟩ := bind_eq_ok.1 h
    obtain ⟨values, hvalues, h⟩ := bind_eq_ok.1 h
    obtain rfl := Except.ok.inj h
    intro x hx
    rcases List.mem_cons.1 hx with rfl | hx
    · exact ⟨raw, List.mem_cons_self, hvalue⟩
    · obtain ⟨raw', hraw', hitem⟩ := ih hvalues x hx
      exact ⟨raw', List.mem_cons_of_mem raw hraw', hitem⟩

/-- A domain of a query: folded, and without the sign that it may be written with. -/
structure Domain (s : Str) : Prop where
  fixed : Fixed s
  bare : codePoint '@' ∉ s

omit [PythonText] in
theorem dropWhile_bare {s : Str} (h : codePoint '@' ∉ s) :
    s.dropWhile (· = codePoint '@') = s := by
  cases s with
  | nil => rfl
  | cons c s =>
    rw [List.dropWhile_cons, if_neg]
    intro hc
    rw [of_decide_eq_true hc] at h
    exact h List.mem_cons_self

variable (laws : FoldLaws)
include laws

theorem domain_of_domainItem {raw s : Str} (h : domainItem raw = .ok s) : Domain s := by
  obtain ⟨u, hvalid, h⟩ := bind_eq_ok.1 h
  obtain rfl := Except.ok.inj h
  refine ⟨fun c hc => ?_, ?_⟩
  · exact fixed_casefold laws raw c ((List.dropWhile_suffix _).subset hc)
  · have hparts := require_eq_ok.1 hvalid
    simp only [Bool.and_eq_true, Bool.not_eq_true', List.contains_eq_mem,
      decide_eq_false_iff_not] at hparts
    exact hparts.1.1.1.2

omit laws in
theorem Domain.compact {s : Str} (h : Domain s) : Domain (compact s) where
  fixed c hc := by
    rcases mem_compact hc with hc | rfl
    · exact h.fixed c hc
    · rw [PythonText.casefold_ascii _ rfl]
      rfl
  bare hc := by
    rcases mem_compact hc with hc | hblank
    · exact h.bare hc
    · exact absurd hblank (by decide)

theorem domainItem_of_domain {raw s : Str} (hraw : Domain raw) (h : domainItem raw = .ok s) :
    s = raw := by
  obtain ⟨u, -, h⟩ := bind_eq_ok.1 h
  obtain rfl := Except.ok.inj h
  rw [casefold_of_fixed laws hraw.fixed, dropWhile_bare hraw.bare]

/-- The first reading of a list of domains may leave two that are equal, the second one does not
accept these, and every later one reads what it has read. -/
theorem boundedDomains_settled {value : Option Json} {ds xs : List Str}
    (hfirst : boundedDomains value = .ok ds) (h : boundedDomains (listValue ds) = .ok xs) :
    boundedDomains (listValue xs) = .ok xs := by
  obtain ⟨raws, -, hds⟩ := bind_eq_ok.1 hfirst
  obtain ⟨vs, hvs, hxs⟩ := bind_eq_ok.1 h
  have hdomain : ∀ v ∈ vs, Domain v := by
    intro v hv
    have hread : distinctItems (valueItem "sender_domains" 253) PythonText.casefold
        (queryError "sender_domains" "duplicate") [] (ds.map Json.str) = .ok vs := by
      unfold boundedValues listArgument listValue at hvs
      dsimp only at hvs
      split at hvs
      · exact hvs
      · cases hvs
    obtain ⟨raw, hraw, hitem⟩ := mem_of_distinctItems hread v hv
    obtain ⟨d, hd, rfl⟩ := List.mem_map.1 hraw
    obtain ⟨raw, -, hd⟩ := mem_of_mapM hds d hd
    obtain ⟨t, ht, hitem⟩ := bind_eq_ok.1 hitem
    obtain ⟨-, -, hitem⟩ := bind_eq_ok.1 hitem
    obtain rfl := Except.ok.inj hitem
    obtain rfl := Except.ok.inj (ht.symm.trans (rawText_str d))
    exact (domain_of_domainItem laws hd).compact
  obtain rfl := mapM_eq_self (fun v hv y hy => domainItem_of_domain laws (hdomain v hv) hy) hxs
  exact bind_eq_ok.2 ⟨xs, boundedValues_settled hvs, hxs⟩

end Domains

section Writing

theorem lookup_append (fields fields' : List (Str × Json)) (k : Str) :
    lookup (fields ++ fields') k = (lookup fields k).or (lookup fields' k) := by
  rw [lookup, lookup, lookup, List.find?_append]
  cases fields.find? fun p => p.1 = k <;> rfl

theorem lookup_optionalField (key k : Str) (value : Option Json) :
    lookup (optionalField key value) k = if key = k then value else none := by
  cases value with
  | none => simp [optionalField, lookup]
  | some v => by_cases hk : key = k <;> simp [optionalField, lookup, hk]

theorem mem_optionalField {key : Str} {value : Option Json} {p : Str × Json}
    (h : p ∈ optionalField key value) : p.1 = key := by
  cases value with
  | none => cases h
  | some v => rw [List.mem_singleton.1 h]

/-- The arguments of a query by their names, each of which may be left out. -/
def EmailQuery.entries (q : EmailQuery) : List (Str × Option Json) :=
  [("visibility", some (.str q.visibility.value)), ("order", some (.str q.order.value)),
    ("limit", some (.int q.limit)),
    ("start", if q.end_.isSome then q.start.map fun t => .str (isoUtcSeconds t) else none),
    ("end", if q.start.isSome then q.end_.map fun t => .str (isoUtcSeconds t) else none),
    ("mailbox_refs", if q.mailboxRefs = [] then none else listValue q.mailboxRefs),
    ("sender_addresses", if q.senderAddresses = [] then none else listValue q.senderAddresses),
    ("sender_domains", if q.senderDomains = [] then none else listValue q.senderDomains),
    ("sender_text", textValue q.senderText),
    ("recipient_addresses",
      if q.recipientAddresses = [] then none else listValue q.recipientAddresses),
    ("label_refs", if q.labelRefs = [] then none else listValue q.labelRefs),
    ("label_match", if q.labelRefs = [] then none else some (.str q.labelMatch.value)),
    ("classification", textValue q.classification), ("text", textValue q.text),
    ("has_attachment", q.hasAttachment.map Json.bool)]

def fieldsOf (entries : List (Str × Option Json)) : List (Str × Json) :=
  entries.flatMap fun p => optionalField p.1 p.2

theorem toArguments_eq (q : EmailQuery) : q.toArguments = fieldsOf q.entries := by
  have hinterval : intervalFields q.start q.end_ =
      optionalField "start" (if q.end_.isSome then q.start.map fun t => .str (isoUtcSeconds t)
        else none) ++
      optionalField "end" (if q.start.isSome then q.end_.map fun t => .str (isoUtcSeconds t)
        else none) := by
    cases q.start <;> cases q.end_ <;> rfl
  rw [EmailQuery.toArguments, hinterval]
  simp only [fieldsOf, EmailQuery.entries, listField, List.flatMap_cons, List.flatMap_nil,
    List.append_nil, List.append_assoc]
  rfl

theorem lookup_fieldsOf {entries : List (Str × Option Json)}
    (hnodup : (entries.map Prod.fst).Nodup) {k : Str} {value : Option Json}
    (h : (k, value) ∈ entries) : lookup (fieldsOf entries) k = value := by
  induction entries with
  | nil => cases h
  | cons p entries ih =>
    rw [List.map_cons, List.nodup_cons] at hnodup
    rw [fieldsOf, List.flatMap_cons, lookup_append, lookup_optionalField]
    rcases List.mem_cons.1 h with rfl | h
    · have hrest : lookup (fieldsOf entries) k = none := by
        simp only [lookup, Option.map_eq_none_iff, List.find?_eq_none, decide_eq_true_eq]
        intro p hp hk
        obtain ⟨entry, hentry, hp⟩ := List.mem_flatMap.1 hp
        refine hnodup.1 (List.mem_map.2 ⟨entry, hentry, ?_⟩)
        rw [← mem_optionalField hp, hk]
      rw [if_pos rfl, ← fieldsOf, hrest, Option.or_none]
    · have hother : p.1 ≠ k := by
        rintro rfl
        exact hnodup.1 (List.mem_map.2 ⟨_, h, rfl⟩)
      rw [if_neg hother, Option.none_or]
      exact ih hnodup.2 h

/-- The fields that a query writes are apart and allowed. -/
theorem entries_keys (q : EmailQuery) : (q.entries.map Prod.fst).Nodup ∧
    (q.entries.map Prod.fst).all (fun k => allowedFields.contains k) = true := by
  have hkeys : q.entries.map Prod.fst = [text "visibility", text "order", text "limit",
      text "start", text "end", text "mailbox_refs", text "sender_addresses",
      text "sender_domains", text "sender_text", text "recipient_addresses", text "label_refs",
      text "label_match", text "classification", text "text", text "has_attachment"] := rfl
  rw [hkeys]
  decide +kernel

theorem lookup_toArguments (q : EmailQuery) (i : Nat) {k : Str} {value : Option Json}
    (h : q.entries[i]? = some (k, value)) : lookup q.toArguments k = value := by
  rw [toArguments_eq]
  exact lookup_fieldsOf (entries_keys q).1 (List.mem_of_getElem? h)

theorem toArguments_allowed (q : EmailQuery) :
    q.toArguments.all (fun p => allowedFields.contains p.1) = true := by
  rw [toArguments_eq, List.all_eq_true]
  intro p hp
  obtain ⟨entry, hentry, hp⟩ := List.mem_flatMap.1 hp
  rw [mem_optionalField hp]
  exact List.all_eq_true.1 (entries_keys q).2 _ (List.mem_map_of_mem hentry)

end Writing

section Reading

variable [PythonText] [DateText]

omit [PythonText] [DateText] in
theorem isIsoChar_isoUtcSeconds (t : Instant) : ∀ c ∈ isoUtcSeconds t, isIsoChar c = true := by
  have hmark : ∀ c ∈ text "Z", isIsoChar c = true := List.all_eq_true.1 (by decide)
  rw [isoUtcSeconds_eq]
  exact isIsoChar_append (isIsoChar_isoBody t) hmark

/-- A time in whole seconds is read as it was written. -/
theorem awareInstant_isoUtcSeconds {t : Instant} (ht : t.floor = t) (field : String) :
    awareInstant (some (.str (isoUtcSeconds t))) field = .ok t := by
  have hstrip : strip (isoUtcSeconds t) = isoUtcSeconds t :=
    strip_of_forall fun c hc => isSpace_of_isIsoChar (isIsoChar_isoUtcSeconds t c hc)
  have hraw : (isoBody t ++ text "Z").dropLast ++ text "+00:00" = isoUtc t := by
    have hlast : (isoBody t ++ text "Z").dropLast = isoBody t := List.dropLast_concat
    rw [hlast, ← isoUtc_floor, ht]
  have hmod : t.val % 1000000 = 0 := by
    rw [← ht]
    exact floor_mod t
  have hrange : 0 ≤ (t.val : Int) ∧ (t.val : Int) < maxMicros := by
    have := t.isLt
    omega
  refine bind_eq_ok.2 ⟨_, rawText_str _, ?_⟩
  dsimp only
  rw [hstrip, isoUtcSeconds_eq, endsWith_append, if_pos rfl, hraw,
    DateText.readDatetime_isoUtc t hmod]
  dsimp only
  rw [dif_pos hrange]
  have hback : (⟨(t.val : Int).toNat, by omega⟩ : Instant) = t := Fin.ext (Int.toNat_natCast _)
  rw [hback, ht]

omit [PythonText] [DateText] in
theorem listArgument_given {xs : List Str} {maximum : Nat} {invalid : PyError}
    {read : List Json → Except PyError (List Str)}
    (h : listArgument (listValue xs) maximum invalid read = .ok xs) :
    listArgument (if xs = [] then none else listValue xs) maximum invalid read = .ok xs := by
  by_cases hxs : xs = []
  · rw [if_pos hxs, hxs]
    rfl
  · rw [if_neg hxs, h]

end Reading

section Construction

variable [PythonText]

/-- The query that the constructor makes of its fields. -/
structure Constructed (zones : Str → Bool) (f : QueryFields) (q : EmailQuery) : Prop where
  pair : f.start.isSome = f.end_.isSome
  start : q.start = f.start.map Instant.floor
  end_ : q.end_ = f.end_.map Instant.floor
  timezone : q.timezoneName = strip f.timezoneName
  zone : zones q.timezoneName = true
  ordered : (q.start.all fun s => q.end_.all fun e => s < e) = true
  visibility : Visibility.ofText? (folded f.visibility) = some q.visibility
  order : QueryOrder.ofText? (folded f.order) = some q.order
  labelMatch : LabelMatch.ofText? (folded f.labelMatch) = some q.labelMatch
  limit : readLimit f.limit = .ok q.limit
  hasAttachment : readAttachment f.hasAttachment = .ok q.hasAttachment
  mailboxRefs : boundedValues (listValue f.mailboxRefs) "mailbox_refs" 320 = .ok q.mailboxRefs
  senderAddresses :
    boundedEmails (listValue f.senderAddresses) "sender_addresses" = .ok q.senderAddresses
  senderDomains : boundedDomains (listValue f.senderDomains) = .ok q.senderDomains
  senderText : compactText (textValue f.senderText) 200 = .ok q.senderText
  recipientAddresses :
    boundedEmails (listValue f.recipientAddresses) "recipient_addresses" = .ok q.recipientAddresses
  labelRefs : boundedValues (listValue f.labelRefs) "label_refs" 320 = .ok q.labelRefs
  classification : q.classification = if folded (f.classification.getD []) = [] then none
    else some (folded (f.classification.getD []))
  queryText : compactText (textValue f.text) 200 = .ok q.text
  boundary : f.cursorInternalDate.isSome = f.cursorMessageId.isSome
  positive : f.cursorInternalDate.all (0 ≤ ·) = true
  cursorInternalDate : q.cursorInternalDate = f.cursorInternalDate
  cursorMessageId : q.cursorMessageId = if strip (f.cursorMessageId.getD []) = [] then none
    else some (strip (f.cursorMessageId.getD []))

omit [PythonText] in
theorem requireMember_eq_ok {α : Type} {value : Option α} {field : String} {a : α} :
    requireMember value field = .ok a ↔ value = some a := by
  cases value <;> simp [requireMember]

theorem postInit_eq_ok {zones : Str → Bool} {f : QueryFields} {q : EmailQuery} :
    postInit zones f = .ok q ↔ Constructed zones f q := by
  constructor
  · intro h
    obtain ⟨u, hpair, h⟩ := bind_eq_ok.1 h
    obtain ⟨u, hzone, h⟩ := bind_eq_ok.1 h
    obtain ⟨u, hordered, h⟩ := bind_eq_ok.1 h
    obtain ⟨visibility, hvisibility, h⟩ := bind_eq_ok.1 h
    obtain ⟨order, horder, h⟩ := bind_eq_ok.1 h
    obtain ⟨labelMatch, hmatch, h⟩ := bind_eq_ok.1 h
    obtain ⟨limit, hlimit, h⟩ := bind_eq_ok.1 h
    obtain ⟨hasAttachment, hattachment, h⟩ := bind_eq_ok.1 h
    obtain ⟨mailboxRefs, hmailboxes, h⟩ := bind_eq_ok.1 h
    obtain ⟨senderAddresses, hsenders, h⟩ := bind_eq_ok.1 h
    obtain ⟨senderDomains, hdomains, h⟩ := bind_eq_ok.1 h
    obtain ⟨senderText, hsender, h⟩ := bind_eq_ok.1 h
    obtain ⟨recipientAddresses, hrecipients, h⟩ := bind_eq_ok.1 h
    obtain ⟨labelRefs, hlabels, h⟩ := bind_eq_ok.1 h
    obtain ⟨queryText, htext, h⟩ := bind_eq_ok.1 h
    obtain ⟨u, hboundary, h⟩ := bind_eq_ok.1 h
    obtain ⟨u, hpositive, h⟩ := bind_eq_ok.1 h
    obtain rfl := Except.ok.inj h
    exact {
      pair := by simpa using require_eq_ok.1 hpair
      start := rfl
      end_ := rfl
      timezone := rfl
      zone := require_eq_ok.1 hzone
      ordered := require_eq_ok.1 hordered
      visibility := requireMember_eq_ok.1 hvisibility
      order := requireMember_eq_ok.1 horder
      labelMatch := requireMember_eq_ok.1 hmatch
      limit := hlimit
      hasAttachment := hattachment
      mailboxRefs := hmailboxes
      senderAddresses := hsenders
      senderDomains := hdomains
      senderText := hsender
      recipientAddresses := hrecipients
      labelRefs := hlabels
      classification := rfl
      queryText := htext
      boundary := by simpa using require_eq_ok.1 hboundary
      positive := require_eq_ok.1 hpositive
      cursorInternalDate := rfl
      cursorMessageId := rfl }
  · intro h
    have hzone := h.zone
    have hordered := h.ordered
    rw [h.timezone] at hzone
    rw [h.start, h.end_] at hordered
    refine bind_eq_ok.2 ⟨(), require_eq_ok.2 (by simpa using h.pair), ?_⟩
    refine bind_eq_ok.2 ⟨(), require_eq_ok.2 hzone, bind_eq_ok.2 ⟨(), require_eq_ok.2 hordered, ?_⟩⟩
    refine bind_eq_ok.2 ⟨_, requireMember_eq_ok.2 h.visibility, ?_⟩
    refine bind_eq_ok.2 ⟨_, requireMember_eq_ok.2 h.order, ?_⟩
    refine bind_eq_ok.2 ⟨_, requireMember_eq_ok.2 h.labelMatch, ?_⟩
    refine bind_eq_ok.2 ⟨_, h.limit, bind_eq_ok.2 ⟨_, h.hasAttachment, ?_⟩⟩
    refine bind_eq_ok.2 ⟨_, h.mailboxRefs, bind_eq_ok.2 ⟨_, h.senderAddresses, ?_⟩⟩
    refine bind_eq_ok.2 ⟨_, h.senderDomains, bind_eq_ok.2 ⟨_, h.senderText, ?_⟩⟩
    refine bind_eq_ok.2 ⟨_, h.recipientAddresses, bind_eq_ok.2 ⟨_, h.labelRefs, ?_⟩⟩
    refine bind_eq_ok.2 ⟨_, h.queryText, ?_⟩
    refine bind_eq_ok.2 ⟨(), require_eq_ok.2 (by simpa using h.boundary), ?_⟩
    refine bind_eq_ok.2 ⟨(), require_eq_ok.2 h.positive, ?_⟩
    refine congrArg Except.ok ?_
    rw [← h.start, ← h.end_, ← h.timezone, ← h.classification, ← h.cursorInternalDate,
      ← h.cursorMessageId]

end Construction

section Acceptance

variable [PythonText]

theorem folded_folded {s : Str} (h : Folded s) : folded s = s := by
  rw [folded, h.strip, h.casefold]

omit [PythonText] in
/-- The words of a query are folded, and read as what they are written for. -/
theorem queryWords_folded :
    (∀ v : Visibility, isFolded v.value = true ∧ Visibility.ofText? v.value = some v) ∧
    (∀ o : QueryOrder, isFolded o.value = true ∧ QueryOrder.ofText? o.value = some o) ∧
      ∀ m : LabelMatch, isFolded m.value = true ∧ LabelMatch.ofText? m.value = some m := by
  refine ⟨fun v => ?_, fun o => ?_, fun m => ?_⟩
  · cases v <;> decide +kernel
  · cases o <;> decide +kernel
  · cases m <;> decide +kernel

theorem visibility_again (v : Visibility) : Visibility.ofText? (folded v.value) = some v := by
  obtain ⟨hfolded, hread⟩ := queryWords_folded.1 v
  rwa [folded_folded (folded_of_isFolded hfolded)]

theorem order_again (o : QueryOrder) : QueryOrder.ofText? (folded o.value) = some o := by
  obtain ⟨hfolded, hread⟩ := queryWords_folded.2.1 o
  rwa [folded_folded (folded_of_isFolded hfolded)]

theorem labelMatch_again (m : LabelMatch) : LabelMatch.ofText? (folded m.value) = some m := by
  obtain ⟨hfolded, hread⟩ := queryWords_folded.2.2 m
  rwa [folded_folded (folded_of_isFolded hfolded)]

omit [PythonText] in
theorem readLimit_eq_ok {value : Option Json} {n : Int} (h : readLimit value = .ok n) :
    1 ≤ n ∧ n ≤ 50 := by
  unfold readLimit at h
  split at h
  · split at h
    · next hrange =>
      obtain rfl := Except.ok.inj h
      exact hrange
    · cases h
  · cases h

omit [PythonText] in
theorem floor_floor (t : Instant) : t.floor.floor = t.floor := by
  refine Fin.ext ?_
  show t.floor.val - t.floor.val % 1000000 = t.floor.val
  rw [floor_mod, Nat.sub_zero]

/-- A classification of the catalog: folded, and found again. -/
structure Classified (allowed : List Str) (c : Option Str) : Prop where
  folded : ∀ s ∈ c, folded s = s ∧ s ≠ []
  again : allowlistedValue (textValue c) allowed "classification" = .ok c

theorem classified_of_allowlistedValue (laws : FoldLaws) {value : Option Json} {allowed : List Str}
    {c : Option Str} (h : allowlistedValue value allowed "classification" = .ok c) :
    Classified allowed c := by
  obtain ⟨t, -, h⟩ := bind_eq_ok.1 h
  dsimp only at h
  split at h
  · obtain rfl := Except.ok.inj h
    refine ⟨fun s hs => absurd hs (Option.not_mem_none s), ?_⟩
    have hnil : PythonText.casefold (strip []) = [] := PythonText.casefold_ascii [] rfl
    refine bind_eq_ok.2 ⟨[], rfl, ?_⟩
    dsimp only
    rw [if_pos hnil]
  · next hne =>
    obtain ⟨u, hmember, h⟩ := bind_eq_ok.1 h
    obtain rfl := Except.ok.inj h
    have hsame : PythonText.casefold (strip (PythonText.casefold (strip t))) =
        PythonText.casefold (strip t) := by
      rw [strip_casefold laws (strip_strip t), casefold_casefold laws]
    refine ⟨fun s hs => ?_, ?_⟩
    · obtain rfl := Option.some.inj hs
      exact ⟨hsame, hne⟩
    · refine bind_eq_ok.2 ⟨_, rawText_str _, ?_⟩
      dsimp only
      rw [hsame, if_neg hne]
      exact bind_eq_ok.2 ⟨u, hmember, rfl⟩

/-- What is known of every query that was accepted. -/
structure EmailQuery.Normal (ctx : QueryContext) (q : EmailQuery) : Prop where
  pair : q.start.isSome = q.end_.isSome
  wholeStart : ∀ t ∈ q.start, t.floor = t
  wholeEnd : ∀ t ∈ q.end_, t.floor = t
  ordered : (q.start.all fun s => q.end_.all fun e => s < e) = true
  timezone : q.timezoneName = strip ctx.timezoneName
  zone : ctx.zones q.timezoneName = true
  limit : 1 ≤ q.limit ∧ q.limit ≤ 50
  mailboxRefs : boundedValues (listValue q.mailboxRefs) "mailbox_refs" 320 = .ok q.mailboxRefs
  senderAddresses :
    boundedEmails (listValue q.senderAddresses) "sender_addresses" = .ok q.senderAddresses
  senderDomains : boundedDomains (listValue q.senderDomains) = .ok q.senderDomains
  senderText : compactText (textValue q.senderText) 200 = .ok q.senderText
  recipientAddresses :
    boundedEmails (listValue q.recipientAddresses) "recipient_addresses" = .ok q.recipientAddresses
  labelRefs : boundedValues (listValue q.labelRefs) "label_refs" 320 = .ok q.labelRefs
  classified : Classified ctx.allowedCategories q.classification
  queryText : compactText (textValue q.text) 200 = .ok q.text
  cursorInternalDate : q.cursorInternalDate = none
  cursorMessageId : q.cursorMessageId = none

variable [DateText] {ctx : QueryContext} {q : EmailQuery}

omit [DateText] in
theorem classification_again {c : Option Str} (h : ∀ s ∈ c, folded s = s ∧ s ≠ []) :
    (if folded (c.getD []) = [] then none else some (folded (c.getD []))) = c := by
  cases c with
  | none => exact if_pos (PythonText.casefold_ascii [] rfl)
  | some s =>
    obtain ⟨hsame, hne⟩ := h s rfl
    rw [Option.getD_some, hsame, if_neg hne]

theorem normal_of_fromArguments (laws : FoldLaws) {arguments : List (Str × Json)}
    (h : fromArguments ctx arguments = .ok q) : q.Normal ctx := by
  obtain ⟨u, hcatalog, h⟩ := bind_eq_ok.1 h
  obtain ⟨u, hshape, h⟩ := bind_eq_ok.1 h
  obtain ⟨start, hstart, h⟩ := bind_eq_ok.1 h
  obtain ⟨end_, hend, h⟩ := bind_eq_ok.1 h
  obtain ⟨mailboxRefs, hmailboxes, h⟩ := bind_eq_ok.1 h
  obtain ⟨senderAddresses, hsenders, h⟩ := bind_eq_ok.1 h
  obtain ⟨senderDomains, hdomains, h⟩ := bind_eq_ok.1 h
  obtain ⟨senderText, hsender, h⟩ := bind_eq_ok.1 h
  obtain ⟨recipientAddresses, hrecipients, h⟩ := bind_eq_ok.1 h
  obtain ⟨labelRefs, hlabels, h⟩ := bind_eq_ok.1 h
  obtain ⟨labelMatch, -, h⟩ := bind_eq_ok.1 h
  obtain ⟨classification, hclass, h⟩ := bind_eq_ok.1 h
  obtain ⟨visibility, -, h⟩ := bind_eq_ok.1 h
  obtain ⟨queryText, htext, h⟩ := bind_eq_ok.1 h
  obtain ⟨order, -, h⟩ := bind_eq_ok.1 h
  have hq := postInit_eq_ok.1 h
  have hclassified := classified_of_allowlistedValue laws hclass
  have hsame : q.classification = classification :=
    hq.classification.trans (classification_again hclassified.folded)
  have hwhole (t : Option Instant) : ∀ s ∈ t.map Instant.floor, s.floor = s := by
    intro s hs
    obtain ⟨t, -, rfl⟩ := Option.mem_map.1 hs
    exact floor_floor t
  exact {
    pair := by rw [hq.start, hq.end_, Option.isSome_map, Option.isSome_map]; exact hq.pair
    wholeStart := by rw [hq.start]; exact hwhole _
    wholeEnd := by rw [hq.end_]; exact hwhole _
    ordered := hq.ordered
    timezone := hq.timezone
    zone := hq.zone
    limit := readLimit_eq_ok hq.limit
    mailboxRefs := boundedValues_settled hq.mailboxRefs
    senderAddresses := boundedEmails_settled laws hq.senderAddresses
    senderDomains := boundedDomains_settled laws hdomains hq.senderDomains
    senderText := compactText_settled hq.senderText
    recipientAddresses := boundedEmails_settled laws hq.recipientAddresses
    labelRefs := boundedValues_settled hq.labelRefs
    classified := by rw [hsame]; exact hclassified
    queryText := compactText_settled hq.queryText
    cursorInternalDate := hq.cursorInternalDate
    cursorMessageId := hq.cursorMessageId }

/-- A boundary of a cursor, as the constructor keeps it. -/
def boundaryId (id : Option Str) : Option Str :=
  if strip (id.getD []) = [] then none else some (strip (id.getD []))

omit [DateText] in
/-- The fields of a query, with a way to match labels and a cursor, make that query. -/
theorem constructed_again (hq : q.Normal ctx) (m : LabelMatch) {zone : Str}
    (hzone : strip zone = q.timezoneName) (date : Option Int) (id : Option Str)
    (hboundary : date.isSome = id.isSome) (hpositive : date.all (0 ≤ ·) = true) :
    Constructed ctx.zones
      { q.fields with
        timezoneName := zone, labelMatch := m.value, cursorInternalDate := date
        cursorMessageId := id }
      { q with labelMatch := m, cursorInternalDate := date, cursorMessageId := boundaryId id } where
  pair := hq.pair
  start := (Option.map_congr hq.wholeStart |>.trans (Option.map_id')).symm
  end_ := (Option.map_congr hq.wholeEnd |>.trans (Option.map_id')).symm
  timezone := hzone.symm
  zone := hq.zone
  ordered := hq.ordered
  visibility := visibility_again q.visibility
  order := order_again q.order
  labelMatch := labelMatch_again m
  limit := if_pos hq.limit
  hasAttachment := by
    show readAttachment (q.hasAttachment.map Json.bool) = .ok q.hasAttachment
    cases q.hasAttachment <;> rfl
  mailboxRefs := hq.mailboxRefs
  senderAddresses := hq.senderAddresses
  senderDomains := hq.senderDomains
  senderText := hq.senderText
  recipientAddresses := hq.recipientAddresses
  labelRefs := hq.labelRefs
  classification := (classification_again hq.classified.folded).symm
  queryText := hq.queryText
  boundary := hboundary
  positive := hpositive
  cursorInternalDate := rfl
  cursorMessageId := rfl

/-- How labels are matched is written down only where there are labels to match. -/
def EmailQuery.canonical (q : EmailQuery) : EmailQuery :=
  { q with labelMatch := if q.labelRefs = [] then .any else q.labelMatch }

omit [DateText] in
theorem canonical_of_normal (hq : q.Normal ctx) :
    { q with
      labelMatch := q.canonical.labelMatch, cursorInternalDate := none
      cursorMessageId := boundaryId none } = q.canonical := by
  have hid : q.cursorMessageId = boundaryId none := hq.cursorMessageId
  rw [← hid, ← hq.cursorInternalDate]
  rfl

theorem givenInstant_toArguments (hq : q.Normal ctx) :
    givenInstant q.toArguments "start" "start" = .ok q.start ∧
      givenInstant q.toArguments "end" "end" = .ok q.end_ := by
  have hpair := hq.pair
  rw [givenInstant, givenInstant, lookup_toArguments q 3 rfl, lookup_toArguments q 4 rfl]
  cases hstart : q.start with
  | none =>
    cases hend : q.end_ with
    | none => exact ⟨rfl, rfl⟩
    | some e => simp [hstart, hend] at hpair
  | some t =>
    cases hend : q.end_ with
    | none => simp [hstart, hend] at hpair
    | some e =>
      exact ⟨map_eq_ok.2 ⟨t, awareInstant_isoUtcSeconds (hq.wholeStart t hstart) _, rfl⟩,
        map_eq_ok.2 ⟨e, awareInstant_isoUtcSeconds (hq.wholeEnd e hend) _, rfl⟩⟩

omit [DateText] in
theorem textOr_value {s default : Str} (h : s ≠ []) : textOr (some (.str s)) default = .ok s := by
  simp [textOr, truthy, h, pyStr]

/-- Reading the arguments of a query runs the constructor on the fields that were written. -/
theorem fromArguments_written (hcatalog : ctx.allowedMailboxSelectors.any (strip · ≠ []) = true)
    (hq : q.Normal ctx) : fromArguments ctx q.toArguments = .ok q.canonical := by
  obtain ⟨hstart, hend⟩ := givenInstant_toArguments hq
  have hvalue (v : Visibility) : v.value ≠ [] := by cases v <;> decide
  have horder (o : QueryOrder) : o.value ≠ [] := by cases o <;> decide
  have hmatch : textOr (lookup q.toArguments "label_match") "any" =
      .ok q.canonical.labelMatch.value := by
    rw [lookup_toArguments q 11 rfl, EmailQuery.canonical]
    by_cases hlabels : q.labelRefs = []
    · rw [if_pos hlabels, if_pos hlabels]
      rfl
    · rw [if_neg hlabels, if_neg hlabels]
      exact textOr_value (by cases q.labelMatch <;> decide)
  have hshape : (q.toArguments.all (fun p => allowedFields.contains p.1) &&
      (lookup q.toArguments "start").isSome == (lookup q.toArguments "end").isSome) = true := by
    rw [toArguments_allowed, lookup_toArguments q 3 rfl, lookup_toArguments q 4 rfl]
    cases q.start <;> cases q.end_ <;> rfl
  refine bind_eq_ok.2 ⟨(), require_eq_ok.2 hcatalog, bind_eq_ok.2 ⟨(), require_eq_ok.2 hshape, ?_⟩⟩
  refine bind_eq_ok.2 ⟨_, hstart, bind_eq_ok.2 ⟨_, hend, ?_⟩⟩
  rw [lookup_toArguments q 5 rfl, lookup_toArguments q 6 rfl, lookup_toArguments q 7 rfl,
    lookup_toArguments q 8 rfl, lookup_toArguments q 9 rfl, lookup_toArguments q 10 rfl,
    lookup_toArguments q 12 rfl, lookup_toArguments q 0 rfl, lookup_toArguments q 13 rfl,
    lookup_toArguments q 1 rfl, lookup_toArguments q 14 rfl, lookup_toArguments q 2 rfl]
  refine bind_eq_ok.2 ⟨_, listArgument_given hq.mailboxRefs, ?_⟩
  refine bind_eq_ok.2 ⟨_, listArgument_given hq.senderAddresses, ?_⟩
  refine bind_eq_ok.2 ⟨q.senderDomains, ?_, bind_eq_ok.2 ⟨_, hq.senderText, ?_⟩⟩
  · obtain ⟨domains, hdomains, hitems⟩ := bind_eq_ok.1 hq.senderDomains
    refine bind_eq_ok.2 ⟨domains, ?_, hitems⟩
    by_cases hnone : q.senderDomains = []
    · rw [if_pos hnone]
      rw [hnone] at hdomains
      exact hdomains
    · rw [if_neg hnone]
      exact hdomains
  refine bind_eq_ok.2 ⟨_, listArgument_given hq.recipientAddresses, ?_⟩
  refine bind_eq_ok.2 ⟨_, listArgument_given hq.labelRefs, bind_eq_ok.2 ⟨_, hmatch, ?_⟩⟩
  refine bind_eq_ok.2 ⟨_, hq.classified.again, bind_eq_ok.2 ⟨_, textOr_value (hvalue _), ?_⟩⟩
  refine bind_eq_ok.2 ⟨_, hq.queryText, bind_eq_ok.2 ⟨_, textOr_value (horder _), ?_⟩⟩
  have hconstructed := constructed_again hq q.canonical.labelMatch hq.timezone.symm none none
    rfl rfl
  rw [canonical_of_normal hq] at hconstructed
  exact postInit_eq_ok.2 hconstructed

theorem catalog_of_fromArguments {arguments : List (Str × Json)}
    (h : fromArguments ctx arguments = .ok q) :
    ctx.allowedMailboxSelectors.any (strip · ≠ []) = true := by
  obtain ⟨u, hcatalog, -⟩ := bind_eq_ok.1 h
  exact require_eq_ok.1 hcatalog

/-- A query that is read from its own arguments is the same query, but for the way to match labels
where there are none. So are the queries that these arguments and those of its cursors denote. -/
theorem fromArguments_toArguments (laws : FoldLaws) {arguments : List (Str × Json)}
    (h : fromArguments ctx arguments = .ok q) :
    fromArguments ctx q.toArguments = .ok q.canonical ∧
      q.canonical.toArguments = q.toArguments ∧
      ∀ lastInternalDate lastMessageId, 0 < lastInternalDate →
        queryFromCursor ctx ⟨q.toArguments, lastInternalDate, lastMessageId⟩ =
          .ok { q.canonical with
            cursorInternalDate := some lastInternalDate
            cursorMessageId := boundaryId (some lastMessageId) } := by
  have hq := normal_of_fromArguments laws h
  have hread := fromArguments_written (catalog_of_fromArguments h) hq
  refine ⟨hread, ?_, fun lastInternalDate lastMessageId hpositive => ?_⟩
  · rw [EmailQuery.toArguments, EmailQuery.toArguments, EmailQuery.canonical]
    by_cases hlabels : q.labelRefs = []
    · simp only [hlabels, if_true]
    · simp only [hlabels, if_false]
  · refine bind_eq_ok.2 ⟨q.canonical, hread, ?_⟩
    have hne : lastInternalDate ≠ 0 := by omega
    have hzone : strip q.timezoneName = q.timezoneName := by
      rw [hq.timezone, strip_strip]
    have hconstructed := constructed_again hq q.canonical.labelMatch hzone
      (some lastInternalDate) (some lastMessageId) rfl (by simpa using hpositive.le)
    dsimp only
    rw [if_neg hne]
    exact postInit_eq_ok.2 hconstructed

end Acceptance

section Samples

def plainContext : QueryContext where
  timezoneName := "UTC"
  allowedMailboxSelectors := ["inbox"]
  allowedCategories := ["Receipts"]
  zones s := s = text "UTC"

/-- Arguments that are not in their normal form. -/
def spacedArguments : List (Str × Json) :=
  [("sender_domains", .arr [.str " @Example.COM"]), ("text", .str "monthly  report "),
    ("classification", .str "RECEIPTS"), ("start", .str "2024-01-01T00:00:00+00:00"),
    ("end", .str "2024-02-01T00:00:00Z")]

def spacedQuery : EmailQuery where
  start := some ⟨738885 * 86400000000, by decide⟩
  end_ := some ⟨738916 * 86400000000, by decide⟩
  timezoneName := "UTC"
  mailboxRefs := []
  senderAddresses := []
  senderDomains := ["example.com"]
  senderText := none
  recipientAddresses := []
  labelRefs := []
  labelMatch := .any
  classification := some "receipts"
  visibility := .all
  text := some "monthly report"
  hasAttachment := none
  order := .newest
  limit := 20
  cursorInternalDate := none
  cursorMessageId := none

theorem fromArguments_spaced :
    @fromArguments asciiText plainDates plainContext spacedArguments = .ok spacedQuery := by
  decide +kernel

theorem fromArguments_toArguments_spaced :
    @fromArguments asciiText plainDates plainContext spacedQuery.toArguments =
      .ok spacedQuery.canonical :=
  (@fromArguments_toArguments asciiText plainDates _ _ foldLaws_asciiText _ fromArguments_spaced).1

/-- A way to match labels without labels is accepted, and is not written down. -/
theorem label_match_forgotten :
    @fromArguments asciiText plainDates plainContext [("label_match", .str "all")] =
      .ok { spacedQuery with
        start := none, end_ := none, senderDomains := [], classification := none, text := none
        labelMatch := .all } ∧
    @fromArguments asciiText plainDates plainContext { spacedQuery with
        start := none, end_ := none, senderDomains := [], classification := none, text := none
        labelMatch := .all : EmailQuery }.toArguments ≠
      .ok { spacedQuery with
        start := none, end_ := none, senderDomains := [], classification := none, text := none
        labelMatch := .all } := by
  decide +kernel

end Samples

end HardyAI.Email
